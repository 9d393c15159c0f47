import Kjdmud.Lib.Structured.Execution

/-!
# Machines on flat code

A machine that carries out flat instructions one by one, with a stack of handlers, and the
structured code that it goes through.  It comes to an end exactly if the structured code has an
exit, and then as the exit says.
-/

namespace Kjdmud.Structured

variable {ι σ ε ρ α : Type*}

/-- What a step leads to. -/
inductive Next (C ρ : Type*)
  | running (c : C)
  | done (r : ρ)

/-- A machine whose handlers are of the type `φ`. -/
structure Host (M : Meaning ι σ ε ρ) (C φ : Type*) where
  config : Nat → List φ → σ → C
  step : C → Next C ρ
  /-- The handler at a position, from the state in which the guard was entered. -/
  frame : Nat → σ → φ
  trap : List φ → ε → σ → Next C ρ
  trap_nil : ∀ e s, trap [] e s = .done (M.uncaught e s)
  trap_cons : ∀ target entered frames e s, trap (frame target entered :: frames) e s =
    .running (config target frames (M.caught entered e s))

namespace Host

variable {M : Meaning ι σ ε ρ} {C φ : Type*} (H : Host M C φ)

/-- The machine at a position. -/
def here (p : Nat) (frames : List φ) (s : σ) : Next C ρ :=
  .running (H.config p frames s)

/-- Go on behind an instruction. -/
def handle (frames : List φ) (d : Did σ ε ρ α) (k : α → Next C ρ) : Next C ρ :=
  match d with
  | .next a => k a
  | .raise e s => H.trap frames e s
  | .stop r => .done r

/-- The instruction at a position is carried out. -/
def Does [Operation ι] : Flat ι → Nat → Prop
  | .op i, p => ∀ frames s, H.step (H.config p frames s) =
      H.handle frames (M.op i s) (H.here (p + 1 + Operation.width i) frames)
  | .data _ _, _ => True
  | .jump target, p => ∀ frames s, H.step (H.config p frames s) =
      H.handle frames (M.jump s) (H.here target.toNat frames)
  | .jumpIfFalse target, p => ∀ frames s, H.step (H.config p frames s) =
      H.handle frames (M.test s) fun (holds, s) =>
        H.here (if holds then p + 1 else target.toNat) frames s
  | .guard target, p => ∀ frames s, H.step (H.config p frames s) =
      H.handle frames (M.jump s) fun s => H.here (p + 1) (H.frame target.toNat s :: frames) s
  | .unguard, p => ∀ f frames s, H.step (H.config p (f :: frames) s) =
      H.handle frames (M.paid M.passed s) (H.here (p + 1) frames)

/-- The instructions from a position on are carried out. -/
def Placed [Operation ι] : List (Flat ι) → Nat → Prop
  | [], _ => True
  | f :: flat, p => H.Does f p ∧ Placed flat (p + 1)

theorem placed_append [Operation ι] (first second : List (Flat ι)) (p : Nat) :
    H.Placed (first ++ second) p ↔ H.Placed first p ∧ H.Placed second (p + first.length) := by
  induction first generalizing p with
  | nil => simp [Placed]
  | cons f first ih =>
      rw [List.cons_append, Placed, Placed, ih, and_assoc, List.length_cons,
        Nat.add_right_comm, Nat.add_assoc p]

/-! ## Runs -/

/-- How a run ends after so many steps at most. -/
def finish : Nat → Next C ρ → Option ρ
  | _, .done r => some r
  | 0, .running _ => none
  | n + 1, .running c => finish n (H.step c)

@[simp]
theorem finish_done (n : Nat) (r : ρ) : H.finish n (.done r) = some r := by
  cases n <;> rfl

variable {H} {x y z : Next C ρ} {n m : Nat} {r : ρ}

theorem finish_succ (ends : H.finish n x = some r) : H.finish (n + 1) x = some r := by
  induction n generalizing x with
  | zero =>
      cases x with
      | running c => cases ends
      | done r' => exact ends
  | succ n ih =>
      cases x with
      | running c => exact ih ends
      | done r' => exact ends

theorem finish_mono (ends : H.finish n x = some r) (le : n ≤ m) : H.finish m x = some r := by
  induction le with
  | refl => exact ends
  | step _ ih => exact finish_succ ih

variable (H) in
/-- A run leads from one point to another, in one step at least if it is strict. -/
def Leads (strict : Bool) (x y : Next C ρ) : Prop :=
  ∃ j, (strict = true → 0 < j) ∧ ∀ k, H.finish (k + j) x = H.finish k y

namespace Leads

variable {strict strict' : Bool}

theorem refl (x : Next C ρ) : H.Leads false x x :=
  ⟨0, Bool.noConfusion, fun _ => rfl⟩

theorem mono (leads : H.Leads strict x y) (weaker : strict' = true → strict = true) :
    H.Leads strict' x y := by
  obtain ⟨j, positive, same⟩ := leads
  exact ⟨j, fun holds => positive (weaker holds), same⟩

theorem trans (first : H.Leads strict x y) (second : H.Leads strict' y z) :
    H.Leads (strict || strict') x z := by
  obtain ⟨j, positive, same⟩ := first
  obtain ⟨j', positive', same'⟩ := second
  refine ⟨j' + j, fun either => ?_, fun k => ?_⟩
  · rcases Bool.or_eq_true_iff.mp either with holds | holds
    · exact Nat.add_pos_right j' (positive holds)
    · exact Nat.add_pos_left (positive' holds) j
  · rw [← Nat.add_assoc, same, same']

/-- One step. -/
theorem step (c : C) : H.Leads true (.running c) (H.step c) :=
  ⟨1, fun _ => Nat.one_pos, fun _ => rfl⟩

/-- What is behind takes less. -/
theorem finish (leads : H.Leads strict x y) (ends : H.finish n x = some r) :
    H.finish (n - strict.toNat) y = some r := by
  obtain ⟨j, positive, same⟩ := leads
  rw [← same]
  refine finish_mono ends ?_
  cases strict with
  | false => exact Nat.le_add_right n j
  | true =>
      have := positive rfl
      simp only [Bool.toNat_true]
      omega

end Leads

/-! ## Simulation -/

variable (H) in
/-- Where the machine is behind a piece of code that ends at `stop`. -/
def after (t : Targets) (stop : Nat) (frames : List φ) : Exit σ ε ρ → Next C ρ
  | .normal s => H.here stop frames s
  | .leave hole s => H.here (t hole).toNat frames s
  | .raise e s => H.trap frames e s
  | .stop r => .done r

variable (H) in
/-- From a point on, the machine does what some structured code does, for runs of at most `N`
steps.  Jumps out of the code take a step, if there has been none. -/
structure Simulates (N : Nat) (moved : Bool) (start : Next C ρ) (X : Option (Exit σ ε ρ))
    (end_ : Exit σ ε ρ → Next C ρ) : Prop where
  sound : ∀ x, X = some x → H.Leads (x.isLeave && !moved) start (end_ x)
  complete : ∀ n ≤ N, ∀ r, H.finish n start = some r → ∃ x, X = some x

namespace Simulates

variable {N N' : Nat} {moved moved' : Bool} {start : Next C ρ} {X : Option (Exit σ ε ρ)}
  {mid end_ : Exit σ ε ρ → Next C ρ} {t : Targets} {stop p : Nat} {frames : List φ}

theorem mono (simulates : H.Simulates N moved start X end_) (le : N' ≤ N)
    (weaker : moved = true → moved' = true) : H.Simulates N' moved' start X end_ where
  sound x eq := by
    refine (simulates.sound x eq).mono fun holds => ?_
    cases moved with
    | false => cases moved' <;> simp_all
    | true => simp_all
  complete n bound := simulates.complete n (Nat.le_trans bound le)

/-- Nothing is left to do. -/
theorem here {x : Exit σ ε ρ} (same : start = end_ x) (strict : x.isLeave = true → moved = true) :
    H.Simulates N moved start (some x) end_ where
  sound y eq := by
    cases eq
    rw [same]
    refine (Leads.refl _).mono fun holds => ?_
    cases moved <;> simp_all
  complete _ _ _ _ := ⟨x, rfl⟩

/-- Nothing is left to do, and nothing has jumped. -/
theorem stays {x : Exit σ ε ρ} (same : start = end_ x) (stays : x.isLeave = false) :
    H.Simulates N moved start (some x) end_ := by
  apply here same
  intro leaves
  rw [stays] at leaves
  cases leaves

/-- One piece of code behind the other. -/
theorem bind {k : Exit σ ε ρ → Option (Exit σ ε ρ)} (first : H.Simulates N moved start X mid)
    (rest : ∀ x, X = some x → H.Simulates (N - (x.isLeave && !moved).toNat)
      (moved || x.isLeave) (mid x) (k x) end_) :
    H.Simulates N moved start (X.bind k) end_ where
  sound y eq := by
    obtain ⟨x, found, eq⟩ := Option.bind_eq_some_iff.mp eq
    refine ((first.sound x found).trans ((rest x found).sound y eq)).mono fun holds => ?_
    cases moved <;> cases x.isLeave <;> simp_all
  complete n bound r ends := by
    obtain ⟨x, found⟩ := first.complete n bound r ends
    have behind := (first.sound x found).finish ends
    obtain ⟨y, eq⟩ := (rest x found).complete _ (Nat.sub_le_sub_right bound _) r behind
    exact ⟨y, by rw [found, Option.bind_some, eq]⟩

/-- One piece of code behind the other, if nothing leaves the first. -/
theorem next {k : σ → Option (Exit σ ε ρ)}
    (first : H.Simulates N moved start X (H.after t p frames))
    (rest : ∀ s, H.Simulates N moved (H.here p frames s) (k s) (H.after t stop frames)) :
    H.Simulates N moved start (X.bind (Exit.next k)) (H.after t stop frames) := by
  refine first.bind fun x _ => ?_
  cases x with
  | normal s => exact (rest s).mono (Nat.sub_le _ _) fun holds => by rw [holds]; rfl
  | leave hole s => exact .here rfl fun _ => Bool.or_true moved
  | raise e s => exact .stays rfl rfl
  | stop r => exact .stays rfl rfl

/-- One instruction. -/
theorem step {c : C} {d : Did σ ε ρ α} {k : α → Option (Exit σ ε ρ)} {onward : α → Next C ρ}
    (goes : H.step c = H.handle frames d onward)
    (rest : ∀ a, H.Simulates (N - 1) true (onward a) (k a) (H.after t stop frames)) :
    H.Simulates N moved (.running c) (d.exit k) (H.after t stop frames) := by
  have first : H.Simulates (N - 1) true (H.step c) (d.exit k) (H.after t stop frames) := by
    rw [goes]
    cases d with
    | next a => exact rest a
    | raise e s => exact .stays rfl rfl
    | stop r => exact .stays rfl rfl
  constructor
  · intro x eq
    exact ((Leads.step c).trans (first.sound x eq)).mono fun _ => rfl
  · intro n bound r ends
    cases n with
    | zero => cases ends
    | succ n => exact first.complete n (by omega) r ends

/-- A test. -/
theorem tested [Operation ι] {target : Int} {yes no : σ → Option (Exit σ ε ρ)} {s : σ}
    (does : H.Does (.jumpIfFalse target) p)
    (onYes : ∀ s, H.Simulates (N - 1) true (H.here (p + 1) frames s) (yes s)
      (H.after t stop frames))
    (onNo : ∀ s, H.Simulates (N - 1) true (H.here target.toNat frames s) (no s)
      (H.after t stop frames)) :
    H.Simulates N moved (H.here p frames s) (M.tested true yes no s) (H.after t stop frames) := by
  refine step (does frames s) ?_
  rintro ⟨holds, s⟩
  cases holds with
  | true => exact onYes s
  | false => exact onNo s

/-- The test of a loop, if there is one. -/
theorem exitTest [Operation ι] {present : Bool} {exit : Nat} {k : σ → Option (Exit σ ε ρ)}
    (placed : H.Placed (Code.exitTest present exit) p)
    (rest : ∀ N' moved', N' = N ∧ moved' = moved ∨ N' = N - 1 ∧ moved' = true → ∀ s,
      H.Simulates N' moved' (H.here (p + present.toNat) frames s) (k s) (H.after t exit frames))
    (s : σ) : H.Simulates N moved (H.here p frames s)
      (M.tested present k (fun s => some (.normal s)) s) (H.after t exit frames) := by
  cases present with
  | false => exact rest N moved (.inl ⟨rfl, rfl⟩) s
  | true =>
      refine tested placed.1 (fun s => ?_) fun s => ?_
      · exact rest (N - 1) true (.inr ⟨rfl, rfl⟩) s
      · exact stays (by rw [Int.toNat_natCast]; rfl) rfl

end Simulates

/-! ## Loops -/

section

variable [Operation ι] {t : Targets} {frames : List φ} {N : Nat} {moved : Bool}

/-- What a loop is made of, laid out from `pc` on. -/
structure Looping (H : Host M C φ) (pre body post : σ → Option (Exit σ ε ρ))
    (preTest postTest contAtTop : Bool) (t : Targets) (frames : List φ) (fuel : Nat)
    (pc testPc postPc endPc exit : Nat) : Prop where
  atTop : ∀ N ≤ fuel, ∀ moved s, H.Simulates N moved (H.here pc frames s) (pre s)
    (H.after t testPc frames)
  test : H.Placed (Code.exitTest preTest exit) testPc
  inBody : ∀ N ≤ fuel, ∀ moved s,
    H.Simulates N moved (H.here (testPc + preTest.toNat) frames s) (body s)
      (H.after (Code.loopTargets t exit (if contAtTop then pc else postPc)) postPc frames)
  behind : ∀ N ≤ fuel, ∀ moved s, H.Simulates N moved (H.here postPc frames s) (post s)
    (H.after t endPc frames)
  testAgain : H.Placed (Code.exitTest postTest exit) endPc
  jump : H.Does (.jump pc) (endPc + postTest.toNat)

variable {pre body post : σ → Option (Exit σ ε ρ)} {preTest postTest contAtTop : Bool}
  {fuel m pc testPc postPc endPc exit : Nat} {again : σ → Option (Exit σ ε ρ)}

/-- The end of a round. -/
theorem Looping.onward (loop : Looping H pre body post preTest postTest contAtTop t frames fuel pc
    testPc postPc endPc exit)
    (goesOn : ∀ N ≤ m, N ≤ fuel → ∀ s,
      H.Simulates N true (H.here pc frames s) (again s) (H.after t exit frames))
    (few : N ≤ m + 1) (bound : N ≤ fuel) (s : σ) :
    H.Simulates N moved (H.here postPc frames s)
      ((post s).bind (Exit.next (M.tested postTest (fun s => (M.jump s).exit again)
        fun s => some (.normal s)))) (H.after t exit frames) := by
  refine (loop.behind N bound moved s).next (.exitTest loop.testAgain ?_)
  intro N' moved' either s
  have fewer : N' ≤ N := by
    rcases either with ⟨same, -⟩ | ⟨less, -⟩ <;> omega
  refine .step (loop.jump frames s) fun s => ?_
  rw [Int.toNat_natCast]
  exact goesOn (N' - 1) (by omega) (by omega) s

/-- The body of a round; a jump to the top takes a step, unless the test has taken one. -/
theorem Looping.round (loop : Looping H pre body post preTest postTest contAtTop t frames fuel pc
    testPc postPc endPc exit)
    (goesOn : ∀ N ≤ m, N ≤ fuel → ∀ s,
      H.Simulates N true (H.here pc frames s) (again s) (H.after t exit frames))
    (few : N ≤ m + (!moved).toNat) (bound : N ≤ fuel) (s : σ) :
    H.Simulates N moved (H.here (testPc + preTest.toNat) frames s)
      ((body s).bind (Meaning.afterBody contAtTop again fun s =>
        (post s).bind (Exit.next (M.tested postTest (fun s => (M.jump s).exit again)
          fun s => some (.normal s))))) (H.after t exit frames) := by
  have few' : N ≤ m + 1 := by
    have : (!moved).toNat ≤ 1 := Bool.toNat_le _
    omega
  refine (loop.inBody N bound moved s).bind fun x _ => ?_
  cases x with
  | normal s => exact loop.onward goesOn (by omega) (by omega) s
  | leave hole s =>
      have left : N - (!moved).toNat ≤ m := by omega
      cases hole with
      | brk =>
          refine .stays ?_ rfl
          rw [after, after, Code.loopTargets, Int.toNat_natCast]
      | cont =>
          rw [Meaning.afterBody, after, Code.loopTargets, Int.toNat_natCast]
          cases contAtTop with
          | true =>
              exact (goesOn _ left (by omega) s).mono (Nat.le_refl _) fun _ => Bool.or_true moved
          | false => exact loop.onward goesOn (by omega) (by omega) s
      | label n => exact .here rfl fun _ => Bool.or_true moved
  | raise e s => exact .stays rfl rfl
  | stop r => exact .stays rfl rfl

/-- A loop has no more rounds than the run has steps. -/
theorem Looping.rounds (loop : Looping H pre body post preTest postTest contAtTop t frames fuel pc
    testPc postPc endPc exit) (few : N ≤ m) (bound : N ≤ fuel) (s : σ) :
    H.Simulates N false (H.here pc frames s)
      (Meaning.rounds (M.turn pre body post preTest postTest contAtTop) m s)
      (H.after t exit frames) := by
  induction m generalizing N s with
  | zero =>
      obtain rfl := Nat.le_zero.mp few
      constructor
      · intro x eq
        cases eq
      · intro n le r ends
        obtain rfl := Nat.le_zero.mp le
        cases ends
  | succ m ih =>
      have goesOn : ∀ N ≤ m, N ≤ fuel → ∀ s, H.Simulates N true (H.here pc frames s)
          (Meaning.rounds (M.turn pre body post preTest postTest contAtTop) m s)
          (H.after t exit frames) :=
        fun N few bound s => (ih few bound s).mono (Nat.le_refl N) Bool.noConfusion
      refine (loop.atTop N bound false s).next (.exitTest loop.test ?_)
      intro N' moved' either s
      rcases either with ⟨rfl, rfl⟩ | ⟨rfl, rfl⟩
      · exact loop.round goesOn few bound s
      · exact loop.round goesOn (by simp only [Bool.not_true, Bool.toNat_false]; omega) (by omega) s

end

/-! ## Code -/

section

variable [Operation ι]

theorem labelPos_zero (c : Code ι) (pc : Nat) : c.labelPos pc 0 = pc := by
  cases c <;> rfl

variable (H) in
/-- A machine on the flat form of the code, from any label on, does what the code does. -/
def Follows (fuel : Nat) (c : Code ι) : Prop :=
  ∀ {t : Targets} {pc N : Nat}, H.Placed (c.flatten t pc) pc → N ≤ fuel →
    ∀ moved frames n s, H.Simulates N moved (H.here (c.labelPos pc n) frames s)
      (M.exec fuel c n s) (H.after t (pc + c.size) frames)

namespace Follows

variable {fuel : Nat} {a b c : Code ι} {t : Targets} {pc N : Nat} {moved : Bool}
  {frames : List φ}

theorem top (follows : H.Follows fuel c) (placed : H.Placed (c.flatten t pc) pc)
    (bound : N ≤ fuel) (s : σ) : H.Simulates N moved (H.here pc frames s) (M.exec fuel c 0 s)
      (H.after t (pc + c.size) frames) := by
  have simulates := follows placed bound moved frames 0 s
  rwa [labelPos_zero] at simulates

theorem op (i : ι) : H.Follows fuel (.op i) := by
  intro t pc N placed bound moved frames n s
  refine Simulates.step (placed.1 frames s) fun s => .stays ?_ rfl
  rw [after, Code.size, Nat.add_assoc]

theorem seq (first : H.Follows fuel a) (second : H.Follows fuel b) :
    H.Follows fuel (.seq a b) := by
  intro t pc N placed bound moved frames n s
  obtain ⟨inA, inB⟩ := (H.placed_append _ _ pc).mp placed
  rw [Code.length_flatten] at inB
  rw [Code.size, ← Nat.add_assoc]
  cases n with
  | zero => exact (first.top inA bound s).next fun s => second.top inB bound s
  | succ n => exact second inB bound moved frames n s

theorem ifThen (follows : H.Follows fuel a) : H.Follows fuel (.ifThen a) := by
  intro t pc N placed bound moved frames n s
  have stop : pc + (Code.ifThen a).size = pc + 1 + a.size := by
    rw [Code.size, Nat.add_assoc]
  rw [stop]
  refine .tested placed.1 (fun s => ?_) fun s => .stays ?_ rfl
  · exact follows.top placed.2 (by omega) s
  · rw [after, Int.toNat_natCast]

theorem ifElse (first : H.Follows fuel a) (second : H.Follows fuel b) :
    H.Follows fuel (.ifElse a b) := by
  intro t pc N placed bound moved frames n s
  have stop : pc + (Code.ifElse a b).size = pc + 2 + a.size + b.size := by
    rw [Code.size]
    omega
  obtain ⟨test, placed⟩ := placed
  obtain ⟨inA, jump, inB⟩ := (H.placed_append _ _ (pc + 1)).mp placed
  rw [Code.length_flatten] at jump inB
  rw [stop]
  refine .tested test (fun s => ?_) fun s => ?_
  · refine (first.top inA (by omega) s).next fun s => ?_
    refine .step (jump frames s) fun s => .stays ?_ rfl
    rw [after, Int.toNat_natCast]
  · have there : pc + 1 + a.size + 1 = pc + 2 + a.size := by omega
    rw [there] at inB
    rw [Int.toNat_natCast]
    exact second.top inB (by omega) s

theorem loop {pre body post : Code ι} {preTest postTest contAtTop : Bool}
    (atTop : H.Follows fuel pre) (inBody : H.Follows fuel body) (behind : H.Follows fuel post) :
    H.Follows fuel (.loop pre preTest body post postTest contAtTop) := by
  intro t pc N placed bound moved frames n s
  obtain ⟨placed, jump, -⟩ := (H.placed_append _ _ pc).mp placed
  obtain ⟨placed, testAgain⟩ := (H.placed_append _ _ pc).mp placed
  obtain ⟨placed, inPost⟩ := (H.placed_append _ _ pc).mp placed
  obtain ⟨placed, within⟩ := (H.placed_append _ _ pc).mp placed
  obtain ⟨inPre, test⟩ := (H.placed_append _ _ pc).mp placed
  simp only [List.length_append, Code.length_flatten, Code.length_exitTest,
    ← Nat.add_assoc] at jump testAgain inPost within test
  have stop : pc + (Code.loop pre preTest body post postTest contAtTop).size =
      pc + pre.size + preTest.toNat + body.size + post.size + postTest.toNat + 1 := by
    rw [Code.size]
    omega
  rw [stop]
  have looping : Looping H (M.exec fuel pre 0) (M.exec fuel body 0) (M.exec fuel post 0) preTest
      postTest contAtTop t frames fuel pc _ _ _ _ :=
    { atTop := fun N bound moved s => atTop.top inPre bound s
      test := test
      inBody := fun N bound moved s => inBody.top within bound s
      behind := fun N bound moved s => behind.top inPost bound s
      testAgain := testAgain
      jump := jump }
  exact (looping.rounds bound bound s).mono (Nat.le_refl N) Bool.noConfusion

/-- A guard; what is raised under it goes to its handler. -/
theorem guard (under : H.Follows fuel a) (tight : a.holes 0 = []) : H.Follows fuel (.guard a) := by
  intro t pc N placed bound moved frames n s
  have stop : pc + (Code.guard a).size = pc + 2 + a.size := by
    rw [Code.size, Nat.add_assoc]
  obtain ⟨enter, placed⟩ := placed
  obtain ⟨inside, unguard, -⟩ := (H.placed_append _ _ (pc + 1)).mp placed
  rw [Code.length_flatten] at unguard
  rw [stop]
  refine .step (enter frames s) fun entered => ?_
  rw [Int.toNat_natCast]
  refine (under.top inside (by omega) entered).bind fun x found => ?_
  cases x with
  | normal s =>
      refine .step (unguard _ frames s) fun s => .stays ?_ rfl
      have behind : pc + 1 + a.size + 1 = pc + 2 + a.size := by omega
      rw [after, behind]
  | leave hole s =>
      obtain ⟨pos, mem⟩ := exec_leavesBy M fuel a 0 entered 0 hole s found
      rw [tight] at mem
      cases mem
  | raise e s => exact .stays (H.trap_cons _ entered frames e s) rfl
  | stop r => exact .stays rfl rfl

theorem brk : H.Follows fuel .brk := by
  intro t pc N placed bound moved frames n s
  exact .step (placed.1 frames s) fun s => .here rfl fun _ => rfl

theorem cont : H.Follows fuel .cont := by
  intro t pc N placed bound moved frames n s
  exact .step (placed.1 frames s) fun s => .here rfl fun _ => rfl

theorem goto (label : Nat) : H.Follows fuel (.goto label) := by
  intro t pc N placed bound moved frames n s
  exact .step (placed.1 frames s) fun s => .here rfl fun _ => rfl

theorem branch (label : Nat) : H.Follows fuel (.branch label) := by
  intro t pc N placed bound moved frames n s
  exact .tested placed.1 (fun s => .stays rfl rfl) fun s => .here rfl fun _ => rfl

/-- The bodies of a switch, from a label on. -/
theorem bodies (follows : H.Follows fuel b)
    (placed : H.Placed (b.flatten (Code.bodyTargets t (pc + b.size)) pc) pc) (bound : N ≤ fuel)
    (moved : Bool) (frames : List φ) (n : Nat) (s : σ) :
    H.Simulates N moved (H.here (b.labelPos pc n) frames s)
      ((M.exec fuel b n s).bind Meaning.afterBodies) (H.after t (pc + b.size) frames) := by
  refine (follows placed bound moved frames n s).bind fun x _ => ?_
  cases x with
  | normal s => exact .stays rfl rfl
  | leave hole s =>
      cases hole with
      | brk =>
          refine .stays ?_ rfl
          rw [after, after, Code.bodyTargets, Int.toNat_natCast]
      | cont => exact .here rfl fun _ => Bool.or_true moved
      | label n => exact .here rfl fun _ => Bool.or_true moved
  | raise e s => exact .stays rfl rfl
  | stop r => exact .stays rfl rfl

/-- A switch; what its dispatch leaves to is a label of its bodies. -/
theorem switch (first : H.Follows fuel a) (second : H.Follows fuel b) :
    H.Follows fuel (.switch a b) := by
  intro t pc N placed bound moved frames n s
  obtain ⟨inDispatch, inBodies⟩ := (H.placed_append _ _ pc).mp placed
  rw [Code.length_flatten] at inBodies
  rw [Code.size, ← Nat.add_assoc]
  refine (first.top inDispatch bound s).bind fun x _ => ?_
  cases x with
  | normal s =>
      have simulates := bodies second inBodies bound moved frames 0 s
      rw [labelPos_zero] at simulates
      exact simulates.mono (Nat.sub_le _ _) fun holds => by rw [holds]; rfl
  | leave hole s =>
      cases hole with
      | brk => exact .here rfl fun _ => Bool.or_true moved
      | cont => exact .here rfl fun _ => Bool.or_true moved
      | label n =>
          rw [after, Code.dispatchTargets, Int.toNat_natCast]
          exact bodies second inBodies (by omega) _ frames n s
  | raise e s => exact .stays rfl rfl
  | stop r => exact .stays rfl rfl

theorem stmt (nested : Bool) (follows : H.Follows fuel a) : H.Follows fuel (.stmt nested a) :=
  fun placed bound _ _ _ s => follows.top placed bound s

end Follows

/-- A machine on the flat form does what the structured code does. -/
theorem follows (fuel : Nat) (c : Code ι) (tight : c.Sealed) : H.Follows fuel c := by
  induction c with
  | skip => exact fun _ _ _ _ _ _ => .stays rfl rfl
  | op i => exact Follows.op i
  | seq a b iha ihb => exact Follows.seq (iha tight.1) (ihb tight.2)
  | ifThen a iha => exact Follows.ifThen (iha tight)
  | ifElse a b iha ihb => exact Follows.ifElse (iha tight.1) (ihb tight.2)
  | loop pre preTest body post postTest contAtTop ihp ihb ihq =>
      exact Follows.loop (ihp tight.1) (ihb tight.2.1) (ihq tight.2.2)
  | guard a iha => exact Follows.guard (iha tight.2) tight.1
  | brk => exact Follows.brk
  | cont => exact Follows.cont
  | branch n => exact Follows.branch n
  | goto n => exact Follows.goto n
  | switch dispatch bodies ihd ihb => exact Follows.switch (ihd tight.1) (ihb tight.2)
  | stmt nested a iha => exact Follows.stmt nested (iha tight)

/-! ## Whole runs -/

variable {c : Code ι} {last : ι} {pc : Nat} {s : σ} {r : ρ}

/-- A run outside of every guard ends exactly if the structured code has an exit.  The code is
left by its last operation at the latest. -/
theorem finish_iff (tight : c.Sealed) (closed : c.holes pc = [])
    (ends : ∀ s s', M.op last s ≠ .next s') {t : Targets}
    (placed : H.Placed ((Code.seq c (.op last)).flatten t pc) pc) :
    (∃ n, H.finish n (H.here pc [] s) = some r) ↔
      ∃ fuel x, M.exec fuel (.seq c (.op last)) 0 s = some x ∧ x.ending M = some r := by
  have exits {fuel : Nat} {x : Exit σ ε ρ}
      (found : M.exec fuel (.seq c (.op last)) 0 s = some x) :
      ∃ r, x.ending M = some r ∧ H.after t (pc + (Code.seq c (.op last)).size) [] x = .done r := by
    cases x with
    | normal s' =>
        obtain ⟨y, first, second⟩ := Option.bind_eq_some_iff.mp found
        cases y with
        | normal s'' =>
            change (M.op last s'').exit _ = _ at second
            cases did : M.op last s'' with
            | next a => exact absurd did (ends _ _)
            | raise e s => rw [did] at second; cases second
            | stop r => rw [did] at second; cases second
        | leave hole s => cases second
        | raise e s => cases second
        | stop r => cases second
    | leave hole s' =>
        obtain ⟨pos, mem⟩ := exec_leavesBy M fuel _ 0 s pc hole s' found
        rw [Code.holes, closed] at mem
        cases mem
    | raise e s' => exact ⟨_, rfl, H.trap_nil e s'⟩
    | stop r => exact ⟨r, rfl, rfl⟩
  have follows (fuel : Nat) : H.Simulates fuel true (H.here pc [] s)
      (M.exec fuel (.seq c (.op last)) 0 s)
      (H.after t (pc + (Code.seq c (.op last)).size) []) :=
    Follows.top (follows fuel (.seq c (.op last)) ⟨tight, trivial⟩) placed (Nat.le_refl fuel) s
  constructor
  · rintro ⟨n, finished⟩
    obtain ⟨x, found⟩ := (follows n).complete n (Nat.le_refl n) r finished
    obtain ⟨r', ending, done⟩ := exits found
    have behind := ((follows n).sound x found).finish finished
    rw [done, finish_done] at behind
    exact ⟨n, x, found, ending.trans behind⟩
  · rintro ⟨fuel, x, found, ending⟩
    obtain ⟨r', ending', done⟩ := exits found
    obtain ⟨j, -, same⟩ := (follows fuel).sound x found
    refine ⟨0 + j, ?_⟩
    rw [same, done, finish_done, ← ending', ending]

end

end Host

end Kjdmud.Structured
