import Mathlib.Data.Nat.Notation

/-!
# Structured code and its flat form

A code generator for a language with loops, switches and exception guards
emits a flat list of instructions whose jumps carry absolute positions.  This
file separates the two views.  `Code` is the structured form over an arbitrary
type of straight-line operations; `Code.flatten` lays it out from a position
on.  The jumps that leave a piece of code (out of a loop, to its next round, to
a label of a switch) are its *holes*: their targets come from the outside, and
a generator that emits code before it knows them patches them in later.
`patchAll_flatten` says that patching the holes of some kind turns the layout
for one choice of targets into the layout for another.
-/

namespace Kjdmud.Structured

universe u

/-- Operations, each followed by a number of data words in the flat code. -/
class Operation (ι : Type u) where
  width : ι → Nat

/-- Structured code. -/
inductive Code (ι : Type u)
  | skip
  | op (i : ι)
  | seq (a b : Code ι)
  /-- Run `a` if the tested value is true. -/
  | ifThen (a : Code ι)
  /-- Run `a` if the tested value is true, and `b` otherwise. -/
  | ifElse (a b : Code ι)
  /-- Repeat `pre`, `body`, `post`; after `pre` and after `post` the loop may
  test whether to go on.  `continue` enters the loop again at the top or at
  `post`. -/
  | loop (pre : Code ι) (preTest : Bool) (body post : Code ι)
      (postTest contAtTop : Bool)
  /-- Run `a` under a handler. -/
  | guard (a : Code ι)
  | brk
  | cont
  /-- Go to a label of the enclosing switch if the tested value is false. -/
  | branch (label : Nat)
  /-- Go to a label of the enclosing switch. -/
  | goto (label : Nat)
  /-- Let `dispatch` choose a label, the number of a component of the sequence
  `bodies`, and run `bodies` from there. -/
  | switch (dispatch bodies : Code ι)
  /-- `a` is a statement of the source; a nested one stands inside an
  expression. -/
  | stmt (nested : Bool) (a : Code ι)

/-- Flat instructions. -/
inductive Flat (ι : Type u)
  | op (i : ι)
  | data (i : ι) (k : Nat)
  | jump (target : Int)
  | jumpIfFalse (target : Int)
  | guard (target : Int)
  | unguard

/-- The kinds of jump that leave a piece of code. -/
inductive Hole
  | brk
  | cont
  | label (n : Nat)
deriving DecidableEq

/-- A hole that passes through a loop body. -/
def Hole.passesLoop : Hole → Bool
  | .label _ => true
  | _ => false

/-- A hole that passes through the dispatch of a switch. -/
def Hole.passesDispatch : Hole → Bool
  | .label _ => false
  | _ => true

/-- A hole that passes through the bodies of a switch. -/
def Hole.passesBodies : Hole → Bool
  | .brk => false
  | _ => true

/-- The targets of the jumps that leave a piece of code. -/
abbrev Targets := Hole → Int

namespace Code

variable {ι : Type u} [Operation ι]

/-- The length of the flat form. -/
def size : Code ι → Nat
  | skip => 0
  | op i => 1 + Operation.width i
  | seq a b => size a + size b
  | ifThen a => 1 + size a
  | ifElse a b => 2 + size a + size b
  | loop pre preTest body post postTest _ =>
      size pre + preTest.toNat + size body + size post + postTest.toNat + 1
  | guard a => 2 + size a
  | brk | cont | branch _ | goto _ => 1
  | switch dispatch bodies => size dispatch + size bodies
  | stmt _ a => size a

/-- The position of a label in a sequence that starts at `pc`. -/
def labelPos : Code ι → Nat → Nat → Nat
  | seq a b, pc, n + 1 => labelPos b (pc + size a) n
  | _, pc, _ => pc

/-- The exit test of a loop, if it has one. -/
def exitTest (present : Bool) (exit : Nat) : List (Flat ι) :=
  if present then [.jumpIfFalse exit] else []

/-- The targets inside a loop body that leaves to `exit` and goes on at
`next`. -/
def loopTargets (t : Targets) (exit next : Nat) : Targets
  | .brk => exit
  | .cont => next
  | .label n => t (.label n)

/-- The targets inside the dispatch of a switch whose bodies start at `pc`. -/
def dispatchTargets (t : Targets) (bodies : Code ι) (pc : Nat) : Targets
  | .label n => labelPos bodies pc n
  | h => t h

/-- The targets inside the bodies of a switch that leaves to `exit`. -/
def bodyTargets (t : Targets) (exit : Nat) : Targets
  | .brk => exit
  | h => t h

/-- The flat form from position `pc` on. -/
def flatten (t : Targets) : Code ι → Nat → List (Flat ι)
  | skip, _ => []
  | op i, _ => .op i :: (List.range (Operation.width i)).map (.data i)
  | seq a b, pc => flatten t a pc ++ flatten t b (pc + size a)
  | ifThen a, pc =>
      .jumpIfFalse (pc + 1 + size a : Nat) :: flatten t a (pc + 1)
  | ifElse a b, pc =>
      .jumpIfFalse (pc + 2 + size a : Nat) :: flatten t a (pc + 1) ++
        .jump (pc + 2 + size a + size b : Nat) :: flatten t b (pc + 2 + size a)
  | loop pre preTest body post postTest contAtTop, pc =>
      let bodyPc := pc + size pre + preTest.toNat
      let postPc := bodyPc + size body
      let exit := postPc + size post + postTest.toNat + 1
      let inner := loopTargets t exit (if contAtTop then pc else postPc)
      flatten t pre pc ++ exitTest preTest exit ++ flatten inner body bodyPc ++
        flatten t post postPc ++ exitTest postTest exit ++ [.jump pc]
  | guard a, pc =>
      .guard (pc + 2 + size a : Nat) :: flatten t a (pc + 1) ++ [.unguard]
  | brk, _ => [.jump (t .brk)]
  | cont, _ => [.jump (t .cont)]
  | branch n, _ => [.jumpIfFalse (t (.label n))]
  | goto n, _ => [.jump (t (.label n))]
  | switch dispatch bodies, pc =>
      let bodiesPc := pc + size dispatch
      flatten (dispatchTargets t bodies bodiesPc) dispatch pc ++
        flatten (bodyTargets t (bodiesPc + size bodies)) bodies bodiesPc
  | stmt _ a, pc => flatten t a pc

attribute [local simp] size flatten

omit [Operation ι] in
theorem length_exitTest (present : Bool) (exit : Nat) :
    (exitTest (ι := ι) present exit).length = present.toNat := by
  cases present <;> rfl

@[simp]
theorem length_flatten (t : Targets) (c : Code ι) (pc : Nat) :
    (flatten t c pc).length = size c := by
  induction c generalizing t pc with
  | skip => rfl
  | op i => simp [flatten, size, Nat.add_comm]
  | seq a b iha ihb => simp [flatten, size, iha, ihb]
  | ifThen a iha => simp [flatten, size, iha, Nat.add_comm]
  | ifElse a b iha ihb =>
      simp [flatten, size, iha, ihb]
      omega
  | loop pre preTest body post postTest contAtTop ihp ihb ihq =>
      simp [flatten, size, ihp, ihb, ihq, length_exitTest]
      omega
  | guard a iha =>
      simp [flatten, size, iha]
      omega
  | brk => rfl
  | cont => rfl
  | branch n => rfl
  | goto n => rfl
  | switch dispatch bodies ihd ihb => simp [flatten, size, ihd, ihb]
  | stmt _ a iha => simp [flatten, size, iha]

/-! ## Holes -/

/-- The holes of code laid out from `pc` on, with their positions, in order. -/
def holes : Code ι → Nat → List (Hole × Nat)
  | skip, _ | op _, _ => []
  | seq a b, pc => holes a pc ++ holes b (pc + size a)
  | ifThen a, pc => holes a (pc + 1)
  | ifElse a b, pc => holes a (pc + 1) ++ holes b (pc + 2 + size a)
  | loop pre preTest body post _ _, pc =>
      let bodyPc := pc + size pre + preTest.toNat
      holes pre pc ++
        (holes body bodyPc).filter (fun hole => Hole.passesLoop hole.1) ++
        holes post (bodyPc + size body)
  | guard a, pc => holes a (pc + 1)
  | brk, pc => [(.brk, pc)]
  | cont, pc => [(.cont, pc)]
  | branch n, pc => [(.label n, pc)]
  | goto n, pc => [(.label n, pc)]
  | switch dispatch bodies, pc =>
      (holes dispatch pc).filter (fun hole => Hole.passesDispatch hole.1) ++
        (holes bodies (pc + size dispatch)).filter
          (fun hole => Hole.passesBodies hole.1)
  | stmt _ a, pc => holes a pc

attribute [local simp] holes

/-- The flat form depends on the targets of its holes only. -/
theorem flatten_congr {t t' : Targets} {c : Code ι} {pc : Nat}
    (same : ∀ hole ∈ holes c pc, t hole.1 = t' hole.1) :
    flatten t c pc = flatten t' c pc := by
  induction c generalizing t t' pc with
  | skip => rfl
  | op i => rfl
  | seq a b iha ihb =>
      simp only [holes, List.mem_append] at same
      simp only [flatten]
      rw [iha fun hole inA => same hole (.inl inA), ihb fun hole inB => same hole (.inr inB)]
  | ifThen a iha =>
      simp only [flatten]
      rw [iha same]
  | ifElse a b iha ihb =>
      simp only [holes, List.mem_append] at same
      simp only [flatten]
      rw [iha fun hole inA => same hole (.inl inA), ihb fun hole inB => same hole (.inr inB)]
  | loop pre preTest body post postTest contAtTop ihp ihb ihq =>
      simp only [holes, List.mem_append, List.mem_filter] at same
      simp only [flatten]
      rw [ihp fun hole inPre => same hole (.inl (.inl inPre)),
        ihq fun hole inPost => same hole (.inr inPost)]
      congr 4
      apply ihb
      rintro ⟨kind, pos⟩ inBody
      cases kind with
      | label n => exact same _ (.inl (.inr ⟨inBody, rfl⟩))
      | _ => rfl
  | guard a iha =>
      simp only [flatten]
      rw [iha same]
  | brk => simp [flatten, same (.brk, pc) (by simp [holes])]
  | cont => simp [flatten, same (.cont, pc) (by simp [holes])]
  | branch n => simp [flatten, same (.label n, pc) (by simp [holes])]
  | goto n => simp [flatten, same (.label n, pc) (by simp [holes])]
  | switch dispatch bodies ihd ihb =>
      simp only [holes, List.mem_append, List.mem_filter] at same
      simp only [flatten]
      congr 1
      · apply ihd
        rintro ⟨kind, pos⟩ inDispatch
        cases kind with
        | label n => rfl
        | _ => exact same _ (.inl ⟨inDispatch, rfl⟩)
      · apply ihb
        rintro ⟨kind, pos⟩ inBodies
        cases kind with
        | brk => rfl
        | _ => exact same _ (.inr ⟨inBodies, rfl⟩)
  | stmt nested a iha => exact iha same

/-! ## Nested statements -/

/-- The code as part of an expression: all its statements are nested. -/
def nest : Code ι → Code ι
  | seq a b => seq (nest a) (nest b)
  | ifThen a => ifThen (nest a)
  | ifElse a b => ifElse (nest a) (nest b)
  | loop pre preTest body post postTest contAtTop =>
      loop (nest pre) preTest (nest body) (nest post) postTest contAtTop
  | guard a => guard (nest a)
  | switch dispatch bodies => switch (nest dispatch) (nest bodies)
  | stmt _ a => stmt true (nest a)
  | c => c

attribute [local simp] nest

@[simp]
theorem size_nest (c : Code ι) : size (nest c) = size c := by
  induction c <;> simp_all [nest, size]

@[simp]
theorem labelPos_nest (c : Code ι) (pc n : Nat) :
    labelPos (nest c) pc n = labelPos c pc n := by
  induction c generalizing pc n with
  | seq a b _ ihb => cases n <;> simp [nest, labelPos, ihb]
  | _ => cases n <;> simp [nest, labelPos]

@[simp]
theorem dispatchTargets_nest (t : Targets) (c : Code ι) (pc : Nat) :
    dispatchTargets t (nest c) pc = dispatchTargets t c pc := by
  funext h
  cases h <;> simp [dispatchTargets]

@[simp]
theorem flatten_nest (t : Targets) (c : Code ι) (pc : Nat) :
    flatten t (nest c) pc = flatten t c pc := by
  induction c generalizing t pc <;> simp_all [nest, flatten]

@[simp]
theorem holes_nest (c : Code ι) (pc : Nat) : holes (nest c) pc = holes c pc := by
  induction c generalizing pc <;> simp_all [nest, holes]

/-! ## Operations -/

/-- Every operation of the code satisfies `P`. -/
def All (P : ι → Prop) : Code ι → Prop
  | op i => P i
  | seq a b => All P a ∧ All P b
  | ifThen a | guard a | stmt _ a => All P a
  | ifElse a b => All P a ∧ All P b
  | loop pre _ body post _ _ => All P pre ∧ All P body ∧ All P post
  | switch dispatch bodies => All P dispatch ∧ All P bodies
  | skip | brk | cont | branch _ | goto _ => True

/-- A flat instruction that belongs to an operation belongs to one that
satisfies `P`. -/
def FlatAll (P : ι → Prop) : Flat ι → Prop
  | .op i | .data i _ => P i
  | _ => True

omit [Operation ι] in
theorem all_nest {P : ι → Prop} {c : Code ι} (all : All P c) : All P (nest c) := by
  induction c <;> simp_all [nest, All]

/-- The flat form holds the operations of the code and no others. -/
theorem flatAll_of_mem {P : ι → Prop} {c : Code ι} (all : All P c) {t : Targets} {pc : Nat}
    {f : Flat ι} (mem : f ∈ flatten t c pc) : FlatAll P f := by
  induction c generalizing t pc with
  | skip => simp [flatten] at mem
  | op i =>
      simp only [flatten, List.mem_cons, List.mem_map] at mem
      rcases mem with rfl | ⟨k, _, rfl⟩
      · exact all
      · exact all
  | seq a b iha ihb =>
      rcases List.mem_append.mp mem with mem | mem
      · exact iha all.1 mem
      · exact ihb all.2 mem
  | ifThen a iha =>
      rcases List.mem_cons.mp mem with rfl | mem
      · exact trivial
      · exact iha all mem
  | ifElse a b iha ihb =>
      simp only [flatten, List.cons_append, List.mem_cons, List.mem_append] at mem
      rcases mem with rfl | mem | rfl | mem
      · exact trivial
      · exact iha all.1 mem
      · exact trivial
      · exact ihb all.2 mem
  | loop pre preTest body post postTest contAtTop ihp ihb ihq =>
      simp only [flatten, List.mem_append, List.mem_singleton] at mem
      rcases mem with ((((mem | mem) | mem) | mem) | mem) | rfl
      · exact ihp all.1 mem
      · cases preTest <;> simp [exitTest] at mem
        subst mem
        exact trivial
      · exact ihb all.2.1 mem
      · exact ihq all.2.2 mem
      · cases postTest <;> simp [exitTest] at mem
        subst mem
        exact trivial
      · exact trivial
  | guard a iha =>
      simp only [flatten, List.cons_append, List.mem_cons, List.mem_append] at mem
      rcases mem with rfl | mem | mem
      · exact trivial
      · exact iha all mem
      · simp only [List.not_mem_nil, or_false] at mem
        subst mem
        exact trivial
  | brk | cont | branch n | goto n =>
      simp only [flatten, List.mem_singleton] at mem
      subst mem
      exact trivial
  | switch dispatch bodies ihd ihb =>
      rcases List.mem_append.mp mem with mem | mem
      · exact ihd all.1 mem
      · exact ihb all.2 mem
  | stmt _ a iha => exact iha all mem

end Code

/-! ## Patching -/

universe v

/-- Change the entries of a list at some positions. -/
def patchAll {α : Type v} (patch : α → α) (positions : List Nat) (code : List α) :
    List α :=
  positions.foldl (fun code p => code.modify p patch) code

theorem patchAll_append {α : Type v} (patch : α → α) (first second : List Nat)
    (code : List α) :
    patchAll patch (first ++ second) code =
      patchAll patch second (patchAll patch first code) := by
  simp only [patchAll, List.foldl_append]

theorem modify_append_cons {α : Type v} (f : α → α) (before after : List α) (x : α)
    {p : Nat} (position : before.length = p) :
    (before ++ x :: after).modify p f = before ++ f x :: after := by
  subst position
  induction before with
  | nil => simp
  | cons y before ih => simp [ih]

@[simp]
theorem length_patchAll {α : Type v} (patch : α → α) (positions : List Nat)
    (code : List α) : (patchAll patch positions code).length = code.length := by
  induction positions generalizing code with
  | nil => rfl
  | cons p positions ih => simpa [patchAll] using ih (code.modify p patch)

@[simp]
theorem patchAll_nil {α : Type v} (patch : α → α) (code : List α) :
    patchAll patch [] code = code :=
  rfl

theorem patchAll_singleton {α : Type v} (patch : α → α) (before after : List α)
    (x : α) {p : Nat} (position : before.length = p) :
    patchAll patch [p] (before ++ x :: after) = before ++ patch x :: after :=
  modify_append_cons patch before after x position

/-- An encoding of flat instructions with a function that gives an encoded jump
the target `target`. -/
structure Retargets {ι : Type u} {α : Type v} (asm : Flat ι → α) (patch : α → α)
    (target : Int) : Prop where
  jump : ∀ t, patch (asm (.jump t)) = asm (.jump target)
  jumpIfFalse : ∀ t, patch (asm (.jumpIfFalse t)) = asm (.jumpIfFalse target)

namespace Code

variable {ι : Type u} [Operation ι]

/-- The positions of the holes of some kind. -/
def selected (sel : Hole → Bool) (c : Code ι) (pc : Nat) : List Nat :=
  ((holes c pc).filter fun hole => sel hole.1).map Prod.snd

/-- Targets with those of some kind replaced. -/
def redirect (sel : Hole → Bool) (target : Int) (t : Targets) : Targets := fun h =>
  if sel h then target else t h

/-- Selecting among the holes that pass a boundary. -/
theorem selected_filter (sel passes : Hole → Bool) (c : Code ι) (pc : Nat) :
    (((holes c pc).filter fun hole => passes hole.1).filter
      fun hole => sel hole.1).map Prod.snd =
        selected (fun h => sel h && passes h) c pc := by
  simp only [selected, List.filter_filter]

theorem redirect_loopTargets (sel : Hole → Bool) (target : Int) (t : Targets)
    (exit next : Nat) :
    redirect (fun h => sel h && Hole.passesLoop h) target (loopTargets t exit next) =
      loopTargets (redirect sel target t) exit next := by
  funext h
  cases h <;> simp [redirect, loopTargets, Hole.passesLoop]

theorem redirect_dispatchTargets (sel : Hole → Bool) (target : Int) (t : Targets)
    (bodies : Code ι) (pc : Nat) :
    redirect (fun h => sel h && Hole.passesDispatch h) target
        (dispatchTargets t bodies pc) =
      dispatchTargets (redirect sel target t) bodies pc := by
  funext h
  cases h <;> simp [redirect, dispatchTargets, Hole.passesDispatch]

theorem redirect_bodyTargets (sel : Hole → Bool) (target : Int) (t : Targets)
    (exit : Nat) :
    redirect (fun h => sel h && Hole.passesBodies h) target (bodyTargets t exit) =
      bodyTargets (redirect sel target t) exit := by
  funext h
  cases h <;> simp [redirect, bodyTargets, Hole.passesBodies]

section

variable {α : Type v} {asm : Flat ι → α} {patch : α → α} {target : Int}

/-- Patching the holes of some kind redirects them. -/
theorem patchAll_flatten (retargets : Retargets asm patch target) (sel : Hole → Bool)
    (t : Targets) (c : Code ι) (pc : Nat) (before after : List α)
    (position : before.length = pc) :
    patchAll patch (selected sel c pc) (before ++ ((flatten t c pc).map asm ++ after)) =
      before ++ ((flatten (redirect sel target t) c pc).map asm ++ after) := by
  induction c generalizing sel t pc before after with
  | skip => rfl
  | op i => rfl
  | seq a b iha ihb =>
      have second := ihb sel t (pc + size a)
        (before ++ (flatten (redirect sel target t) a pc).map asm) after (by simp [position])
      simp only [List.append_assoc] at second
      simp only [selected, holes, List.filter_append, List.map_append, flatten,
        List.append_assoc, patchAll_append]
      rw [← selected, ← selected, iha sel t pc before _ position, second]
  | ifThen a iha =>
      have first := iha sel t (pc + 1)
        (before ++ [asm (.jumpIfFalse (pc + 1 + size a : Nat))]) after (by simp [position])
      simpa [selected, holes, flatten] using first
  | ifElse a b iha ihb =>
      have first := iha sel t (pc + 1)
        (before ++ [asm (.jumpIfFalse (pc + 2 + size a : Nat))])
        (asm (.jump (pc + 2 + size a + size b : Nat)) ::
          ((flatten t b (pc + 2 + size a)).map asm ++ after)) (by simp [position])
      have second := ihb sel t (pc + 2 + size a) (before ++ asm (.jumpIfFalse (pc + 2 + size a : Nat)) ::
          ((flatten (redirect sel target t) a (pc + 1)).map asm ++
            [asm (.jump (pc + 2 + size a + size b : Nat))])) after
        (by simp [position]; omega)
      simp only [List.append_assoc, List.cons_append, List.nil_append] at first second
      simp only [selected, holes, List.filter_append, List.map_append, flatten,
        List.map_cons, List.append_assoc, List.cons_append, patchAll_append]
      rw [← selected, ← selected, first, second]
  | loop pre preTest body post postTest contAtTop ihp ihb ihq =>
      generalize exitEq : pc + size pre + preTest.toNat + size body + size post +
        postTest.toNat + 1 = exit
      generalize nextEq :
        (if contAtTop then pc else pc + size pre + preTest.toNat + size body) = next
      have first := ihp sel t pc before
        ((exitTest preTest exit).map asm ++
          ((flatten (loopTargets t exit next) body
              (pc + size pre + preTest.toNat)).map asm ++
            ((flatten t post (pc + size pre + preTest.toNat + size body)).map asm ++
              ((exitTest postTest exit).map asm ++ (asm (.jump pc) :: after))))) position
      have second := ihb (fun h => sel h && Hole.passesLoop h)
        (loopTargets t exit next) (pc + size pre + preTest.toNat)
        (before ++ ((flatten (redirect sel target t) pre pc).map asm ++
          (exitTest preTest exit).map asm))
        ((flatten t post (pc + size pre + preTest.toNat + size body)).map asm ++
          ((exitTest postTest exit).map asm ++ (asm (.jump pc) :: after)))
        (by simp [position, length_exitTest]; omega)
      have third := ihq sel t (pc + size pre + preTest.toNat + size body)
        (before ++ ((flatten (redirect sel target t) pre pc).map asm ++
          ((exitTest preTest exit).map asm ++
            (flatten (loopTargets (redirect sel target t) exit next) body
              (pc + size pre + preTest.toNat)).map asm)))
        ((exitTest postTest exit).map asm ++ (asm (.jump pc) :: after))
        (by simp [position, length_exitTest]; omega)
      rw [redirect_loopTargets] at second
      simp only [List.append_assoc] at second third
      simp only [selected, holes, List.filter_append, List.map_append, flatten,
        List.map_cons, List.map_nil, List.append_assoc, List.cons_append,
        List.nil_append, patchAll_append, exitEq, nextEq]
      rw [selected_filter, ← selected, ← selected, first, second, third]
  | guard a iha =>
      have first := iha sel t (pc + 1)
        (before ++ [asm (.guard (pc + 2 + size a : Nat))]) (asm .unguard :: after)
        (by simp [position])
      simpa [selected, holes, flatten] using first
  | brk =>
      cases chosen : sel .brk <;>
        simp [selected, holes, flatten, redirect, chosen, retargets.jump,
          patchAll_singleton _ _ _ _ position]
  | cont =>
      cases chosen : sel .cont <;>
        simp [selected, holes, flatten, redirect, chosen, retargets.jump,
          patchAll_singleton _ _ _ _ position]
  | branch n =>
      cases chosen : sel (.label n) <;>
        simp [selected, holes, flatten, redirect, chosen, retargets.jumpIfFalse,
          patchAll_singleton _ _ _ _ position]
  | goto n =>
      cases chosen : sel (.label n) <;>
        simp [selected, holes, flatten, redirect, chosen, retargets.jump,
          patchAll_singleton _ _ _ _ position]
  | switch dispatch bodies ihd ihb =>
      have first := ihd (fun h => sel h && Hole.passesDispatch h)
        (dispatchTargets t bodies (pc + size dispatch)) pc before
        ((flatten (bodyTargets t (pc + size dispatch + size bodies)) bodies
          (pc + size dispatch)).map asm ++ after) position
      have second := ihb (fun h => sel h && Hole.passesBodies h)
        (bodyTargets t (pc + size dispatch + size bodies)) (pc + size dispatch)
        (before ++ (flatten (dispatchTargets (redirect sel target t) bodies
          (pc + size dispatch)) dispatch pc).map asm) after (by simp [position])
      rw [redirect_dispatchTargets] at first
      rw [redirect_bodyTargets] at second
      simp only [List.append_assoc] at second
      simp only [selected, holes, List.filter_append, List.map_append, flatten,
        List.append_assoc, patchAll_append]
      rw [selected_filter, selected_filter, first, second]
  | stmt nested a iha => exact iha sel t pc before after position

end

end Code

end Kjdmud.Structured
