import Kjdmud.Compiler.Refinement.Layout

/-!
# Emitting loops

The loop statements of the source differ in where they test, where `continue`
goes and what runs before the body in each round.  They are instances of one
emitter, which lays out one loop of structured code.
-/

namespace Kjdmud.Compiler

open Kjdmud.Vm Kjdmud.Structured Kjdmud.StateExcept

/-! ## Exit tests -/

/-- The bytecode of the exit test of a loop. -/
def testCode (present : Bool) (operand : Int) : List Instruction :=
  if present then [⟨.jumpIfFalse, operand, 0⟩] else []

/-- Emit the exit test of a loop, if it has one. -/
def emitTest (present : Bool) : Gen (Option Nat) :=
  if present then some <$> emitJumpPlaceholder .jumpIfFalse else pure none

/-- Patch the exit test of a loop, if it has one. -/
def patchTest : Option Nat → Gen Unit
  | some idx => patchJumpToHere idx
  | none => pure ()

@[simp]
theorem length_testCode (present : Bool) (operand : Int) :
    (testCode present operand).length = present.toNat := by
  cases present <;> rfl

theorem map_exitTest (present : Bool) (exit : Nat) :
    (Code.exitTest present exit).map assemble = testCode present (int32 exit) := by
  cases present <;> rfl

theorem emitTest_run {present : Bool} {gen gen' : CodeGen} {idx : Option Nat}
    (run : emitTest present gen = .ok (idx, gen')) :
    idx = (if present then some gen.code.length else none) ∧
      Writes gen gen' (gen.code ++ testCode present (-1)) := by
  cases present with
  | true =>
      obtain ⟨n, placed, rfl⟩ := map_eq_ok.1 run
      obtain ⟨rfl, written⟩ := emitJumpPlaceholder_run placed
      exact ⟨rfl, written⟩
  | false =>
      obtain ⟨rfl, rfl⟩ := pure_eq_ok.1 run
      exact ⟨rfl, rfl, rfl, rfl, by simp [testCode]⟩

theorem patchTest_run {present : Bool} {gen gen' : CodeGen} {u : Unit} {n : Nat}
    {before after : List Instruction}
    (run : patchTest (if present then some n else none) gen = .ok (u, gen'))
    (code : gen.code = before ++ (testCode present (-1) ++ after))
    (position : before.length = n) :
    Writes gen gen' (before ++ (testCode present (int32 gen.code.length) ++ after)) := by
  cases present with
  | true =>
      have written := patchJumpToHere_run run
      refine ⟨written.names, written.functions, written.loops, ?_⟩
      rw [written.code]
      generalize gen.code.length = len
      simp only [code, testCode, if_true, List.cons_append, List.nil_append]
      rw [modify_append_cons _ _ _ _ position]
      rfl
  | false =>
      obtain ⟨_, rfl⟩ := pure_eq_ok.1 run
      exact ⟨rfl, rfl, rfl, by simpa [testCode] using code⟩

/-! ## Loops -/

/-- Patch the `continue` jumps of a loop to its top or to the end of the code. -/
def patchContinues (contAtTop : Bool) (loopTop : Nat) (jumps : List Nat) : Gen Unit :=
  if contAtTop then patchAllTo loopTop jumps else patchAllToHere jumps

theorem patchContinues_run {contAtTop : Bool} {loopTop : Nat} {jumps : List Nat}
    {gen gen' : CodeGen} {u : Unit}
    (run : patchContinues contAtTop loopTop jumps gen = .ok (u, gen')) :
    Writes gen gen' (patchAll
      (setOperand (if contAtTop then loopTop else gen.code.length)) jumps gen.code) := by
  cases contAtTop with
  | true => exact patchAllTo_run run
  | false => exact patchAllToHere_run run

/-- The common form of the loops of the source; `lead` runs in each round before
the body. -/
def emitLooping (pre : Gen Unit) (preTest : Bool) (lead body post : Gen Unit)
    (postTest contAtTop : Bool) : Gen Unit := do
  let loopTop ← here
  pre
  let preIdx ← emitTest preTest
  lead
  openLoop false
  body
  let ctx ← closeLoop
  patchContinues contAtTop loopTop ctx.continueJumps
  post
  let postIdx ← emitTest postTest
  emit ⟨.jump, int32 loopTop, 0⟩
  patchTest preIdx
  patchTest postIdx
  patchAllToHere ctx.breakJumps

/-- Code that no jump leaves. -/
def Closed (l : Lower) : Prop :=
  ∀ names c names', l names = .ok (c, names') → ∀ pc, c.holes pc = []

/-- The targets in a loop body once its continues and its breaks are patched. -/
theorem redirect_loop (t : Targets) (exit next : Nat) :
    Code.redirect (fun h => decide (h = .brk)) exit
        (Code.redirect (fun h => decide (h = .cont)) next t) =
      Code.loopTargets t exit next := by
  funext h
  cases h <;> simp [Code.redirect, Code.loopTargets]

/-- Redirecting the holes of code without holes. -/
theorem layout_closed {c : Code Op} {pc : Nat} (closed : c.holes pc = [])
    (sel : Hole → Bool) (target : Nat) (t : Targets) :
    layout (Code.redirect sel target t) c pc = layout t c pc := by
  have patched := patchAll_layout sel target t c pc (List.replicate pc ⟨.halt, 0, 0⟩) []
    (List.length_replicate ..)
  simpa [Code.selected, closed] using patched.symm

/-- The bytecode of a loop. -/
theorem layout_loop (t : Targets) (pre body post : Code Op)
    (preTest postTest contAtTop : Bool) {pc exit next : Nat}
    (exitEq : pc + pre.size + preTest.toNat + body.size + post.size + postTest.toNat + 1 =
      exit)
    (nextEq : (if contAtTop then pc else pc + pre.size + preTest.toNat + body.size) =
      next) :
    layout t (.loop pre preTest body post postTest contAtTop) pc =
      layout t pre pc ++ (testCode preTest (int32 exit) ++
        (layout (Code.loopTargets t exit next) body (pc + pre.size + preTest.toNat) ++
          (layout t post (pc + pre.size + preTest.toNat + body.size) ++
            (testCode postTest (int32 exit) ++ [⟨.jump, int32 pc, 0⟩])))) := by
  simp [layout, Code.flatten, map_exitTest, exitEq, nextEq, assemble]

theorem Realizes.looping {pre lead body post : Gen Unit} {pre' lead' body' post' : Lower}
    (preTest postTest contAtTop : Bool) (realizesPre : Realizes pre pre')
    (realizesLead : Realizes lead lead') (closedLead : Closed lead')
    (realizesBody : Realizes body body') (realizesPost : Realizes post post') :
    Realizes (emitLooping pre preTest lead body post postTest contAtTop)
      (Compiler.looping pre' preTest lead' body' post' postTest contAtTop) := by
  intro gen gen' run
  obtain ⟨_, _, position, run⟩ := bind_eq_ok.1 run
  obtain ⟨rfl, rfl⟩ := here_run position
  obtain ⟨_, gen₁, emittingPre, run⟩ := bind_eq_ok.1 run
  obtain ⟨p, lowerPre, emittedPre⟩ := realizesPre _ gen₁ emittingPre
  obtain ⟨_, gen₂, emittingTest, run⟩ := bind_eq_ok.1 run
  obtain ⟨rfl, test⟩ := emitTest_run emittingTest
  obtain ⟨_, gen₃, emittingLead, run⟩ := bind_eq_ok.1 run
  obtain ⟨l, lowerLead, emittedLead⟩ := realizesLead gen₂ gen₃ emittingLead
  have closed := closedLead _ _ _ lowerLead
  obtain ⟨_, gen₄, opening, run⟩ := bind_eq_ok.1 run
  obtain ⟨names₄, functions₄, code₄, loops₄⟩ := openLoop_run opening
  obtain ⟨_, gen₅, emittingBody, run⟩ := bind_eq_ok.1 run
  obtain ⟨b, lowerBody, emittedBody⟩ := realizesBody gen₄ gen₅ emittingBody
  obtain ⟨ctx, gen₆, closing, run⟩ := bind_eq_ok.1 run
  obtain ⟨rfl, names₆, functions₆, code₆, loops₆⟩ := closeLoop_run closing
  obtain ⟨_, gen₇, patchingConts, run⟩ := bind_eq_ok.1 run
  have conts := patchContinues_run patchingConts
  obtain ⟨_, gen₈, emittingPost, run⟩ := bind_eq_ok.1 run
  obtain ⟨q, lowerPost, emittedPost⟩ := realizesPost gen₇ gen₈ emittingPost
  obtain ⟨_, gen₉, emittingPostTest, run⟩ := bind_eq_ok.1 run
  obtain ⟨rfl, postTested⟩ := emitTest_run emittingPostTest
  obtain ⟨_, gen₁₀, emittingJump, run⟩ := bind_eq_ok.1 run
  have jumped := emit_run emittingJump
  obtain ⟨_, gen₁₁, patchingTest, run⟩ := bind_eq_ok.1 run
  obtain ⟨_, gen₁₂, patchingPostTest, patchingBreaks⟩ := bind_eq_ok.1 run
  have breaks := patchAllToHere_run patchingBreaks
  -- Where each part starts.
  generalize len : gen.code.length = n at *
  generalize exitEq : n + p.size + preTest.toNat + (l.size + b.size) + q.size +
    postTest.toNat + 1 = exit
  have len₁ : gen₁.code.length = n + p.size := by rw [emittedPre.length, len]
  have len₂ : gen₂.code.length = n + p.size + preTest.toNat := by
    rw [test.code, List.length_append, length_testCode, len₁]
  have len₃ : gen₃.code.length = n + p.size + preTest.toNat + l.size := by
    rw [emittedLead.length, len₂]
  have len₆ : gen₆.code.length = n + p.size + preTest.toNat + (l.size + b.size) := by
    rw [code₆, emittedBody.length, code₄, len₃]
    omega
  have len₇ : gen₇.code.length = n + p.size + preTest.toNat + (l.size + b.size) := by
    rw [conts.code, length_patchAll, len₆]
  generalize nextEq : (if contAtTop then n else gen₆.code.length) = next at conts
  have len₈ : gen₈.code.length =
      n + p.size + preTest.toNat + (l.size + b.size) + q.size := by
    rw [emittedPost.length, len₇]
  have len₁₀ : gen₁₀.code.length = exit := by
    simp [jumped.code, postTested.code, len₈]
    omega
  -- The jumps of the body are recorded in its own loop.
  have recorded := emittedBody.loops
  rw [loops₄, code₄, len₃] at recorded
  obtain ⟨shape, labels⟩ := record_loop recorded
  rw [shape] at loops₆ conts breaks
  -- The code before and after each patch.
  have code₃ : gen₃.code = gen.code ++ (layout openTargets p n ++
      (testCode preTest (-1) ++ layout openTargets l (n + p.size + preTest.toNat))) := by
    rw [emittedLead.code, len₂, test.code, emittedPre.code, len]
    simp
  have code₇ : gen₇.code = gen₃.code ++
      layout (Code.redirect (fun h => decide (h = .cont)) next openTargets) b
        (n + p.size + preTest.toNat + l.size) := by
    have patched := patchAll_layout (fun h => decide (h = .cont)) next openTargets b _
      gen₃.code [] len₃
    rw [List.append_nil, List.append_nil] at patched
    rw [conts.code, code₆, emittedBody.code, code₄, len₃]
    exact patched
  generalize bodyEq :
    layout (Code.redirect (fun h => decide (h = .cont)) next openTargets) b
      (n + p.size + preTest.toNat + l.size) = body at code₇
  have code₁₀ : gen₁₀.code = (gen.code ++ layout openTargets p n) ++
      (testCode preTest (-1) ++ (layout openTargets l (n + p.size + preTest.toNat) ++
        (body ++ (layout openTargets q (n + p.size + preTest.toNat + (l.size + b.size)) ++
          (testCode postTest (-1) ++ [⟨.jump, int32 n, 0⟩]))))) := by
    rw [jumped.code, postTested.code, emittedPost.code, len₇, code₇, code₃]
    simp
  have tested := patchTest_run patchingTest code₁₀ (by simp [len, len₁])
  rw [len₁₀] at tested
  have code₁₁ : gen₁₁.code = (gen.code ++ (layout openTargets p n ++
      (testCode preTest (int32 exit) ++
        (layout openTargets l (n + p.size + preTest.toNat) ++
          (body ++ layout openTargets q
            (n + p.size + preTest.toNat + (l.size + b.size))))))) ++
      (testCode postTest (-1) ++ [⟨.jump, int32 n, 0⟩]) := by
    rw [tested.code]
    simp
  have bodyLen : body.length = b.size := by rw [← bodyEq, length_layout]
  have len₁₁ : gen₁₁.code.length = exit := by
    rw [code₁₁]
    simp [len, bodyLen]
    omega
  have postTested' := patchTest_run patchingPostTest code₁₁ (by
    simp [len, len₈, bodyLen]
    omega)
  rw [len₁₁] at postTested'
  have code₁₂ : gen₁₂.code = (gen.code ++ (layout openTargets p n ++
      (testCode preTest (int32 exit) ++
        layout openTargets l (n + p.size + preTest.toNat)))) ++
      (body ++ (layout openTargets q (n + p.size + preTest.toNat + (l.size + b.size)) ++
        (testCode postTest (int32 exit) ++ [⟨.jump, int32 n, 0⟩]))) := by
    rw [postTested'.code]
    simp
  have len₁₂ : gen₁₂.code.length = exit := by
    rw [code₁₂]
    simp [len, bodyLen]
    omega
  have code' : gen'.code = gen.code ++
      layout openTargets (.loop p preTest (.seq l b) q postTest contAtTop) n := by
    have patched := patchAll_layout (fun h => decide (h = .brk)) exit
      (Code.redirect (fun h => decide (h = .cont)) next openTargets) b
      (n + p.size + preTest.toNat + l.size) (gen.code ++ (layout openTargets p n ++ (testCode preTest (int32 exit) ++
        layout openTargets l (n + p.size + preTest.toNat))))
      (layout openTargets q (n + p.size + preTest.toNat + (l.size + b.size)) ++
        (testCode postTest (int32 exit) ++ [⟨.jump, int32 n, 0⟩])) (by
        simp [len]
        omega)
    rw [bodyEq] at patched
    rw [layout_loop openTargets p (.seq l b) q preTest postTest contAtTop exitEq
      (by rw [Code.size, ← len₆, nextEq]), layout_seq, ← redirect_loop,
      layout_closed (by rw [closed]), layout_closed (by rw [closed])]
    rw [breaks.code, len₁₂, code₁₂]
    refine Eq.trans ?_ (patched.trans ?_)
    · simp [positionsOf, Code.selected]
    · simp [Code.size]
  refine ⟨.loop p preTest (.seq l b) q postTest contAtTop, ?_, ?_, ?_, ?_⟩
  · refine bind_eq_ok.2 ⟨p, gen₁.toNames, lowerPre, bind_eq_ok.2 ⟨l, gen₃.toNames, ?_,
      bind_eq_ok.2 ⟨b, gen₅.toNames, ?_, bind_eq_ok.2 ⟨q, gen'.toNames, ?_, rfl⟩⟩⟩⟩
    · rw [← test.names]
      exact lowerLead
    · rw [← names₄]
      exact lowerBody
    · rw [← names₆, ← conts.names, breaks.names, postTested'.names, tested.names,
        jumped.names, postTested.names]
      exact lowerPost
  · rw [breaks.functions, postTested'.functions, tested.functions, jumped.functions,
      postTested.functions, emittedPost.functions, conts.functions, functions₆,
      emittedBody.functions, functions₄, emittedLead.functions, test.functions,
      emittedPre.functions]
  · rw [code', len]
  · have beforePost : gen₇.loopStack = gen₁.loopStack := by
      have leading := emittedLead.loops
      rw [closed] at leading
      rw [conts.loops, loops₆, ← test.loops]
      exact (Option.some.inj leading).symm
    have holes : (Code.loop p preTest (.seq l b) q postTest contAtTop).holes n =
        p.holes n ++ q.holes (n + p.size + preTest.toNat + (l.size + b.size)) := by
      simp only [Code.holes, closed, List.nil_append, labels, Code.size, List.append_nil]
    have posted := emittedPost.loops
    rw [len₇, beforePost] at posted
    have pre := emittedPre.loops
    rw [len] at pre
    rw [len, holes, record_append, pre, Option.bind_some, posted, breaks.loops,
      postTested'.loops, tested.loops, jumped.loops, postTested.loops]

end Kjdmud.Compiler
