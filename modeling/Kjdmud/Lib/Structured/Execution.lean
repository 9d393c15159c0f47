import Kjdmud.Lib.Structured.Code

/-!
# The meaning of structured code

Structured code is executed as a tree, with a `Meaning` of its operations and tests.  A loop may
go on for ever, so all loops have the same number of rounds.
-/

namespace Kjdmud.Structured

/-- What an instruction does: it goes on with a value, raises an error, or ends the run. -/
inductive Did (σ ε ρ α : Type*)
  | next (a : α)
  | raise (e : ε) (s : σ)
  | stop (r : ρ)

/-- How a piece of code is left. -/
inductive Exit (σ ε ρ : Type*)
  | normal (s : σ)
  | leave (hole : Hole) (s : σ)
  | raise (e : ε) (s : σ)
  | stop (r : ρ)

variable {ι σ ε ρ α : Type*}

/-- A jump leaves the code. -/
def Exit.isLeave : Exit σ ε ρ → Bool
  | .leave _ _ => true
  | _ => false

/-- Go on behind an instruction. -/
def Did.exit (d : Did σ ε ρ α) (k : α → Option (Exit σ ε ρ)) : Option (Exit σ ε ρ) :=
  match d with
  | .next a => k a
  | .raise e s => some (.raise e s)
  | .stop r => some (.stop r)

/-- Go on behind a piece of code. -/
def Exit.next (k : σ → Option (Exit σ ε ρ)) : Exit σ ε ρ → Option (Exit σ ε ρ)
  | .normal s => k s
  | x => some x

/-- What the instructions do to a state. -/
structure Meaning (ι σ ε ρ : Type*) where
  op : ι → σ → Did σ ε ρ σ
  test : σ → Did σ ε ρ (Bool × σ)
  /-- A jump, the entry and the end of a guard do nothing else; they may end the run. -/
  pay : σ → Except ρ σ
  /-- The state behind a guard that has caught nothing. -/
  passed : σ → σ
  /-- The state behind a guard that has caught an error, from the state in which it was
  entered. -/
  caught : σ → ε → σ → σ
  uncaught : ε → σ → ρ

/-- How a run ends with code that is left so, outside of every guard. -/
def Exit.ending (M : Meaning ι σ ε ρ) : Exit σ ε ρ → Option ρ
  | .raise e s => some (M.uncaught e s)
  | .stop r => some r
  | .normal _ | .leave _ _ => none

namespace Meaning

variable (M : Meaning ι σ ε ρ)

/-- Go on with a state, if it can be paid for. -/
def paid (f : σ → σ) (s : σ) : Did σ ε ρ σ :=
  match M.pay s with
  | .ok s => .next (f s)
  | .error r => .stop r

def jump : σ → Did σ ε ρ σ :=
  M.paid id

/-- A test, if there is one. -/
def tested (present : Bool) (yes no : σ → Option (Exit σ ε ρ)) (s : σ) :
    Option (Exit σ ε ρ) :=
  if present then (M.test s).exit fun (holds, s) => if holds then yes s else no s
  else yes s

/-- The body of a loop is left. -/
def afterBody (contAtTop : Bool) (again onward : σ → Option (Exit σ ε ρ)) :
    Exit σ ε ρ → Option (Exit σ ε ρ)
  | .normal s => onward s
  | .leave .cont s => if contAtTop then again s else onward s
  | .leave .brk s => some (.normal s)
  | x => some x

/-- One round of a loop. -/
def turn (pre body post : σ → Option (Exit σ ε ρ)) (preTest postTest contAtTop : Bool)
    (again : σ → Option (Exit σ ε ρ)) (s : σ) : Option (Exit σ ε ρ) :=
  (pre s).bind (Exit.next (M.tested preTest
    (fun s => (body s).bind (afterBody contAtTop again fun s =>
      (post s).bind (Exit.next (M.tested postTest (fun s => (M.jump s).exit again)
        fun s => some (.normal s)))))
    fun s => some (.normal s)))

/-- So many rounds. -/
def rounds (turn : (σ → Option (Exit σ ε ρ)) → σ → Option (Exit σ ε ρ)) :
    Nat → σ → Option (Exit σ ε ρ)
  | 0, _ => none
  | n + 1, s => turn (rounds turn n) s

/-- A guard is left.  A jump out of it is not modelled: its handler would stay behind. -/
def afterGuard (entered : σ) : Exit σ ε ρ → Option (Exit σ ε ρ)
  | .normal s => (M.paid M.passed s).exit fun s => some (.normal s)
  | .raise e s => some (.normal (M.caught entered e s))
  | .leave _ _ => none
  | .stop r => some (.stop r)

/-- The bodies of a switch are left. -/
def afterBodies : Exit σ ε ρ → Option (Exit σ ε ρ)
  | .leave .brk s => some (.normal s)
  | x => some x

/-- The dispatch of a switch is left. -/
def afterDispatch (bodies : Nat → σ → Option (Exit σ ε ρ)) :
    Exit σ ε ρ → Option (Exit σ ε ρ)
  | .normal s => (bodies 0 s).bind afterBodies
  | .leave (.label n) s => (bodies n s).bind afterBodies
  | x => some x

/-- Execute structured code from a label on. -/
def exec (fuel : Nat) : Code ι → Nat → σ → Option (Exit σ ε ρ)
  | .skip, _, s => some (.normal s)
  | .op i, _, s => (M.op i s).exit fun s => some (.normal s)
  | .seq a b, 0, s => (exec fuel a 0 s).bind (Exit.next (exec fuel b 0))
  | .seq _ b, n + 1, s => exec fuel b n s
  | .ifThen a, _, s => M.tested true (exec fuel a 0) (fun s => some (.normal s)) s
  | .ifElse a b, _, s =>
      M.tested true
        (fun s => (exec fuel a 0 s).bind (Exit.next fun s =>
          (M.jump s).exit fun s => some (.normal s)))
        (exec fuel b 0) s
  | .loop pre preTest body post postTest contAtTop, _, s =>
      rounds (M.turn (exec fuel pre 0) (exec fuel body 0) (exec fuel post 0) preTest postTest
        contAtTop) fuel s
  | .guard a, _, s => (M.jump s).exit fun s => (exec fuel a 0 s).bind (M.afterGuard s)
  | .brk, _, s => (M.jump s).exit fun s => some (.leave .brk s)
  | .cont, _, s => (M.jump s).exit fun s => some (.leave .cont s)
  | .branch n, _, s =>
      M.tested true (fun s => some (.normal s)) (fun s => some (.leave (.label n) s)) s
  | .goto n, _, s => (M.jump s).exit fun s => some (.leave (.label n) s)
  | .switch dispatch bodies, _, s =>
      (exec fuel dispatch 0 s).bind (afterDispatch (exec fuel bodies))
  | .stmt _ a, _, s => exec fuel a 0 s

end Meaning

/-! ## The jumps that leave it -/

namespace Code

variable [Operation ι]

/-- No jump leaves a guard. -/
def Sealed : Code ι → Prop
  | guard a => holes a 0 = [] ∧ Sealed a
  | seq a b | ifElse a b | switch a b => Sealed a ∧ Sealed b
  | ifThen a | stmt _ a => Sealed a
  | loop pre _ body post _ _ => Sealed pre ∧ Sealed body ∧ Sealed post
  | skip | op _ | brk | cont | branch _ | goto _ => True

instance decidableSealed : (c : Code ι) → Decidable c.Sealed
  | guard a => @instDecidableAnd (holes a 0 = []) _ inferInstance (decidableSealed a)
  | seq a b | ifElse a b | switch a b =>
      @instDecidableAnd _ _ (decidableSealed a) (decidableSealed b)
  | ifThen a | stmt _ a => decidableSealed a
  | loop pre _ body post _ _ =>
      @instDecidableAnd _ _ (decidableSealed pre)
        (@instDecidableAnd _ _ (decidableSealed body) (decidableSealed post))
  | skip | op _ | brk | cont | branch _ | goto _ => .isTrue trivial

end Code

section

variable [Operation ι]

theorem Code.map_fst_filter (p : Hole → Bool) (holes : List (Hole × Nat)) :
    (holes.filter fun hole => p hole.1).map Prod.fst = (holes.map Prod.fst).filter p :=
  List.filter_map.symm

/-- The position of code does not matter to the kinds of its holes. -/
theorem Code.kinds_holes (c : Code ι) (pc pc' : Nat) :
    (c.holes pc).map Prod.fst = (c.holes pc').map Prod.fst := by
  induction c generalizing pc pc' with
  | skip | op i | brk | cont | branch n | goto n => rfl
  | seq a b iha ihb =>
      rw [holes, holes, List.map_append, List.map_append, iha pc pc', ihb _ (pc' + a.size)]
  | ifThen a iha | guard a iha | stmt nested a iha => exact iha _ _
  | ifElse a b iha ihb =>
      rw [holes, holes, List.map_append, List.map_append, iha _ (pc' + 1),
        ihb _ (pc' + 2 + a.size)]
  | loop pre preTest body post postTest contAtTop ihp ihb ihq =>
      simp only [holes, List.map_append, map_fst_filter]
      rw [ihp pc pc', ihb _ (pc' + pre.size + preTest.toNat),
        ihq _ (pc' + pre.size + preTest.toNat + body.size)]
  | switch dispatch bodies ihd ihb =>
      simp only [holes, List.map_append, map_fst_filter]
      rw [ihd pc pc', ihb _ (pc' + dispatch.size)]

theorem Code.holes_eq_nil {c : Code ι} {pc : Nat} (closed : c.holes pc = []) (pc' : Nat) :
    c.holes pc' = [] := by
  have kinds := c.kinds_holes pc' pc
  rw [closed] at kinds
  exact List.map_eq_nil_iff.mp kinds

end

/-- Only some jumps leave. -/
def LeavesBy (P : Hole → Prop) (X : Option (Exit σ ε ρ)) : Prop :=
  ∀ hole s, X = some (.leave hole s) → P hole

namespace LeavesBy

variable {P Q : Hole → Prop} {X : Option (Exit σ ε ρ)}

theorem of_ne {x : Exit σ ε ρ} (stays : x.isLeave = false) : LeavesBy P (some x) := by
  intro hole s eq
  cases eq
  cases stays

theorem leave {hole : Hole} (passes : P hole) (s : σ) :
    LeavesBy P (some (Exit.leave hole s : Exit σ ε ρ)) := by
  intro hole' s' eq
  cases eq
  exact passes

theorem mono (leaves : LeavesBy P X) (weaker : ∀ hole, P hole → Q hole) : LeavesBy Q X :=
  fun hole s eq => weaker hole (leaves hole s eq)

theorem bind {k : Exit σ ε ρ → Option (Exit σ ε ρ)}
    (rest : ∀ x, X = some x → LeavesBy P (k x)) : LeavesBy P (X.bind k) := by
  intro hole s eq
  obtain ⟨x, found, eq⟩ := Option.bind_eq_some_iff.mp eq
  exact rest x found hole s eq

theorem next {k : σ → Option (Exit σ ε ρ)} (first : LeavesBy P X)
    (rest : ∀ s, LeavesBy P (k s)) : LeavesBy P (X.bind (Exit.next k)) := by
  refine bind fun x found => ?_
  cases x with
  | normal s => exact rest s
  | leave hole s => exact leave (first hole s found) s
  | raise e s => exact of_ne rfl
  | stop r => exact of_ne rfl

theorem exit {d : Did σ ε ρ α} {k : α → Option (Exit σ ε ρ)} (rest : ∀ a, LeavesBy P (k a)) :
    LeavesBy P (d.exit k) := by
  cases d with
  | next a => exact rest a
  | raise e s => exact of_ne rfl
  | stop r => exact of_ne rfl

variable {M : Meaning ι σ ε ρ}

theorem tested {present : Bool} {yes no : σ → Option (Exit σ ε ρ)}
    (onYes : ∀ s, LeavesBy P (yes s)) (onNo : ∀ s, LeavesBy P (no s)) (s : σ) :
    LeavesBy P (M.tested present yes no s) := by
  rw [Meaning.tested]
  split
  · refine exit fun tested => ?_
    obtain ⟨holds, s⟩ := tested
    cases holds with
    | true => exact onYes s
    | false => exact onNo s
  · exact onYes s

theorem rounds {turn : (σ → Option (Exit σ ε ρ)) → σ → Option (Exit σ ε ρ)}
    (round : ∀ again, (∀ s, LeavesBy P (again s)) → ∀ s, LeavesBy P (turn again s)) (n : Nat) :
    ∀ s, LeavesBy P (Meaning.rounds turn n s) := by
  induction n with
  | zero => exact fun _ _ _ eq => by cases eq
  | succ n ih => exact round _ ih

/-- Only the jumps of a loop body that pass the loop leave it. -/
theorem turn {pre body post : σ → Option (Exit σ ε ρ)} {preTest postTest contAtTop : Bool}
    (inPre : ∀ s, LeavesBy P (pre s)) (inPost : ∀ s, LeavesBy P (post s))
    (inBody : ∀ s, LeavesBy (fun hole => hole.passesLoop = true → P hole) (body s))
    (again : σ → Option (Exit σ ε ρ)) (goesOn : ∀ s, LeavesBy P (again s)) (s : σ) :
    LeavesBy P (M.turn pre body post preTest postTest contAtTop again s) := by
  have back (s : σ) : LeavesBy P ((M.jump s).exit again) :=
    exit goesOn
  have ended (s : σ) : LeavesBy P (some (Exit.normal s : Exit σ ε ρ)) :=
    of_ne rfl
  have onward (s : σ) : LeavesBy P
      ((post s).bind (Exit.next (M.tested postTest (fun s => (M.jump s).exit again)
        fun s => some (.normal s)))) :=
    (inPost s).next (tested back ended)
  refine (inPre s).next (tested (fun s => bind fun x found => ?_) fun s => of_ne rfl)
  cases x with
  | normal s => exact onward s
  | leave hole s =>
      cases hole with
      | brk => exact of_ne rfl
      | cont =>
          rw [Meaning.afterBody]
          split
          · exact goesOn s
          · exact onward s
      | label n => exact leave (inBody _ _ s found rfl) s
  | raise e s => exact of_ne rfl
  | stop r => exact of_ne rfl

/-- The bodies of a switch. -/
theorem afterBodies (inBodies : LeavesBy (fun hole => hole.passesBodies = true → P hole) X) :
    LeavesBy P (X.bind Meaning.afterBodies) := by
  refine bind fun x found => ?_
  cases x with
  | normal s => exact of_ne rfl
  | leave hole s =>
      cases hole with
      | brk => exact of_ne rfl
      | cont => exact leave (inBodies _ s found rfl) s
      | label n => exact leave (inBodies _ s found rfl) s
  | raise e s => exact of_ne rfl
  | stop r => exact of_ne rfl

end LeavesBy

/-- Code is left by its own jumps only. -/
theorem exec_leavesBy [Operation ι] (M : Meaning ι σ ε ρ) (fuel : Nat) (c : Code ι) (n : Nat)
    (s : σ) (pc : Nat) :
    LeavesBy (fun hole => ∃ pos, (hole, pos) ∈ c.holes pc) (M.exec fuel c n s) := by
  induction c generalizing n s pc with
  | skip => exact .of_ne rfl
  | op i => exact .exit fun s => .of_ne rfl
  | seq a b iha ihb =>
      have second (n : Nat) (s : σ) : LeavesBy (fun hole => ∃ pos, (hole, pos) ∈
          (Code.seq a b).holes pc) (M.exec fuel b n s) :=
        (ihb n s _).mono fun _ ⟨pos, mem⟩ => ⟨pos, List.mem_append_right _ mem⟩
      cases n with
      | zero =>
          have first := (iha 0 s pc).mono fun _ ⟨pos, mem⟩ =>
            (⟨pos, List.mem_append_left _ mem⟩ : ∃ pos, (_, pos) ∈ (Code.seq a b).holes pc)
          exact first.next (second 0)
      | succ n => exact second n s
  | ifThen a iha => exact .tested (fun s => iha 0 s _) (fun s => .of_ne rfl) s
  | ifElse a b iha ihb =>
      refine .tested (fun s => .next ?_ fun s => .exit fun s => .of_ne rfl) (fun s => ?_) s
      · exact (iha 0 s _).mono fun _ ⟨pos, mem⟩ => ⟨pos, List.mem_append_left _ mem⟩
      · exact (ihb 0 s _).mono fun _ ⟨pos, mem⟩ => ⟨pos, List.mem_append_right _ mem⟩
  | loop pre preTest body post postTest contAtTop ihp ihb ihq =>
      refine .rounds (.turn (fun s => ?_) (fun s => ?_) fun s => ?_) fuel s
      · exact (ihp 0 s pc).mono fun _ ⟨pos, mem⟩ =>
          ⟨pos, List.mem_append_left _ (List.mem_append_left _ mem)⟩
      · exact (ihq 0 s _).mono fun _ ⟨pos, mem⟩ => ⟨pos, List.mem_append_right _ mem⟩
      · exact (ihb 0 s _).mono fun _ ⟨pos, mem⟩ passes =>
          ⟨pos, List.mem_append_left _ (List.mem_append_right _
            (List.mem_filter.mpr ⟨mem, passes⟩))⟩
  | guard a iha =>
      refine .exit fun s => .bind fun x found => ?_
      cases x with
      | normal s => exact .exit fun s => .of_ne rfl
      | leave hole s => exact fun _ _ eq => by cases eq
      | raise e s => exact .of_ne rfl
      | stop r => exact .of_ne rfl
  | brk => exact .exit fun s => .leave ⟨pc, List.mem_singleton_self _⟩ s
  | cont => exact .exit fun s => .leave ⟨pc, List.mem_singleton_self _⟩ s
  | branch n =>
      exact .tested (fun s => .of_ne rfl) (fun s => .leave ⟨pc, List.mem_singleton_self _⟩ s) s
  | goto n => exact .exit fun s => .leave ⟨pc, List.mem_singleton_self _⟩ s
  | switch dispatch bodies ihd ihb =>
      have inBodies (n : Nat) (s : σ) : LeavesBy (fun hole => ∃ pos, (hole, pos) ∈
          (Code.switch dispatch bodies).holes pc)
            ((M.exec fuel bodies n s).bind Meaning.afterBodies) :=
        .afterBodies ((ihb n s _).mono fun _ ⟨pos, mem⟩ passes =>
          ⟨pos, List.mem_append_right _ (List.mem_filter.mpr ⟨mem, passes⟩)⟩)
      have own (hole : Hole) (passes : hole.passesDispatch = true) (s' : σ)
          (found : M.exec fuel dispatch 0 s = some (.leave hole s')) :
          ∃ pos, (hole, pos) ∈ (Code.switch dispatch bodies).holes pc := by
        obtain ⟨pos, mem⟩ := ihd 0 s pc hole s' found
        exact ⟨pos, List.mem_append_left _ (List.mem_filter.mpr ⟨mem, passes⟩)⟩
      refine .bind fun x found => ?_
      cases x with
      | normal s => exact inBodies 0 s
      | leave hole s =>
          cases hole with
          | brk => exact .leave (own _ rfl s found) s
          | cont => exact .leave (own _ rfl s found) s
          | label n => exact inBodies n s
      | raise e s => exact .of_ne rfl
      | stop r => exact .of_ne rfl
  | stmt nested a iha => exact iha 0 s pc

end Kjdmud.Structured
