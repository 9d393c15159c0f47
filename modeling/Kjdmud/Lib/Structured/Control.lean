import Kjdmud.Lib.Structured.Simulation

/-!
# Where control goes

The instructions that flat code can begin, with the number of guards around them.  Every jump in
the layout of structured code leads to one of them, so a machine on it leaves it at its end only,
and its handlers resume inside.  A jump out of a guard leaves the handler behind: there are at
least as many handlers as guards.
-/

namespace Kjdmud.Structured

variable {ι σ ε ρ : Type*}

/-- An instruction with its position and the number of guards around it. -/
structure Head (ι : Type*) where
  position : Nat
  depth : Nat
  instr : Flat ι

/-- The number of guards behind an instruction. -/
def Flat.depth : Flat ι → Nat → Nat
  | .guard _, d => d + 1
  | .unguard, d => d - 1
  | _, d => d

/-- The number of guards behind flat code. -/
def depthBehind (flat : List (Flat ι)) (d : Nat) : Nat :=
  flat.foldl (fun d f => f.depth d) d

/-- The instructions of flat code that lies at a position inside some guards. -/
def heads : List (Flat ι) → Nat → Nat → List (Head ι)
  | [], _, _ => []
  | .data _ _ :: flat, p, d => heads flat (p + 1) d
  | f :: flat, p, d => ⟨p, d, f⟩ :: heads flat (p + 1) (f.depth d)

theorem heads_append (first second : List (Flat ι)) (p d : Nat) :
    heads (first ++ second) p d =
      heads first p d ++ heads second (p + first.length) (depthBehind first d) := by
  induction first generalizing p d with
  | nil => rfl
  | cons f first ih =>
      have behind : p + 1 + first.length = p + (f :: first).length := by
        rw [List.length_cons, Nat.add_right_comm, Nat.add_assoc]
      cases f <;> simp only [List.cons_append, heads, ih, behind] <;> rfl

theorem get_of_mem_heads {flat : List (Flat ι)} {p d : Nat} {head : Head ι}
    (mem : head ∈ heads flat p d) : ∃ k, head.position = p + k ∧ flat[k]? = some head.instr := by
  induction flat generalizing p d with
  | nil => cases mem
  | cons f flat ih =>
      have later {d : Nat} (mem : head ∈ heads flat (p + 1) d) :
          ∃ k, head.position = p + k ∧ (f :: flat)[k]? = some head.instr := by
        obtain ⟨k, position, found⟩ := ih mem
        exact ⟨k + 1, by rw [position, Nat.add_assoc, Nat.add_comm 1], found⟩
      cases f with
      | data i k => exact later mem
      | _ =>
          rcases List.mem_cons.mp mem with rfl | mem
          · exact ⟨0, rfl, rfl⟩
          · exact later mem

theorem depthBehind_append (first second : List (Flat ι)) (d : Nat) :
    depthBehind (first ++ second) d = depthBehind second (depthBehind first d) :=
  List.foldl_append

theorem heads_words (i : ι) (ks : List Nat) (p d : Nat) :
    heads (ks.map (.data i : Nat → Flat ι)) p d = [] := by
  induction ks generalizing p with
  | nil => rfl
  | cons k ks ih => exact ih (p + 1)

theorem depthBehind_words (i : ι) (ks : List Nat) (d : Nat) :
    depthBehind (ks.map (.data i : Nat → Flat ι)) d = d := by
  induction ks with
  | nil => rfl
  | cons k ks ih => exact ih

/-- Neither an operation nor one of its data words. -/
def Flat.isControl : Flat ι → Bool
  | .op _ | .data _ _ => false
  | _ => true

variable [Operation ι]

/-- Behind each operation stand its data words. -/
inductive Tidy : List (Flat ι) → Prop
  | nil : Tidy []
  | op (i : ι) {flat : List (Flat ι)} (behind : Tidy flat) :
      Tidy (.op i :: ((List.range (Operation.width i)).map (.data i) ++ flat))
  | control {f : Flat ι} {flat : List (Flat ι)} (control : f.isControl = true)
      (behind : Tidy flat) : Tidy (f :: flat)

theorem Tidy.append {first second : List (Flat ι)} (tidy : Tidy first) (behind : Tidy second) :
    Tidy (first ++ second) := by
  induction tidy with
  | nil => exact behind
  | op i _ ih =>
      rw [List.cons_append, List.append_assoc]
      exact .op i ih
  | control control _ ih => exact .control control ih

namespace Code

theorem tidy_exitTest (present : Bool) (exit : Nat) : Tidy (exitTest (ι := ι) present exit) := by
  cases present with
  | false => exact .nil
  | true => exact .control rfl .nil

theorem tidy_flatten (t : Targets) (c : Code ι) (pc : Nat) : Tidy (flatten t c pc) := by
  induction c generalizing t pc with
  | skip => exact .nil
  | op i =>
      have only := Tidy.op i .nil
      rw [List.append_nil] at only
      exact only
  | seq a b iha ihb => exact (iha _ _).append (ihb _ _)
  | ifThen a iha => exact .control rfl (iha _ _)
  | ifElse a b iha ihb => exact .control rfl ((iha _ _).append (.control rfl (ihb _ _)))
  | loop pre preTest body post postTest contAtTop ihp ihb ihq =>
      exact ((((((ihp _ _).append (tidy_exitTest _ _)).append (ihb _ _)).append
        (ihq _ _)).append (tidy_exitTest _ _)).append (.control rfl .nil))
  | guard a iha => exact .control rfl ((iha _ _).append (.control rfl .nil))
  | brk => exact .control rfl .nil
  | cont => exact .control rfl .nil
  | branch n => exact .control rfl .nil
  | goto n => exact .control rfl .nil
  | switch dispatch bodies ihd ihb => exact (ihd _ _).append (ihb _ _)
  | stmt nested a iha => exact iha _ _

omit [Operation ι] in
theorem depthBehind_exitTest (present : Bool) (exit d : Nat) :
    depthBehind (exitTest (ι := ι) present exit) d = d := by
  cases present <;> rfl

/-- Guards are closed. -/
theorem depthBehind_flatten (t : Targets) (c : Code ι) (pc d : Nat) :
    depthBehind (flatten t c pc) d = d := by
  induction c generalizing t pc d with
  | op i => exact depthBehind_words _ _ _
  | seq a b iha ihb | switch a b iha ihb =>
      rw [flatten, depthBehind_append, iha, ihb]
  | ifThen a iha => exact iha _ _ _
  | ifElse a b iha ihb =>
      change depthBehind (flatten t a _ ++ _) d = d
      rw [depthBehind_append, iha]
      exact ihb _ _ _
  | loop pre preTest body post postTest contAtTop ihp ihb ihq =>
      simp only [flatten, depthBehind_append, ihp, ihb, ihq, depthBehind_exitTest]
      rfl
  | guard a iha =>
      change depthBehind (flatten t a _ ++ _) (d + 1) = d
      rw [depthBehind_append, iha]
      rfl
  | stmt nested a iha => exact iha _ _ _
  | _ => rfl

/-- An operation in front of flat code. -/
theorem heads_op_append (i : ι) (flat : List (Flat ι)) (p d : Nat) :
    heads (.op i :: ((List.range (Operation.width i)).map (.data i) ++ flat)) p d =
      ⟨p, d, .op i⟩ :: heads flat (p + 1 + Operation.width i) d := by
  change _ :: heads (_ ++ flat) _ d = _
  rw [heads_append, heads_words, depthBehind_words, List.nil_append, List.length_map,
    List.length_range]

theorem heads_op (t : Targets) (i : ι) (pc p d : Nat) :
    heads (flatten t (.op i) pc) p d = [⟨p, d, .op i⟩] :=
  congrArg _ (heads_words _ _ _ _)

/-! ## Jumps -/

variable {S : Nat → Nat → Prop} {t : Targets} {c : Code ι} {pc d exit : Nat} {present : Bool}

/-- Code begins with one of its instructions, or else it is empty. -/
theorem starts (visits : ∀ head ∈ heads (flatten t c pc) pc d, S head.position head.depth)
    (stop : S (pc + size c) d) : S pc d := by
  have tidy := tidy_flatten t c pc
  rw [← length_flatten t c pc] at stop
  generalize flatten t c pc = flat at tidy visits stop
  cases tidy with
  | nil => exact stop
  | op i behind => exact visits _ List.mem_cons_self
  | @control f flat control behind =>
      cases f with
      | op i => cases control
      | data i k => cases control
      | _ => exact visits _ List.mem_cons_self

omit [Operation ι] in
theorem starts_exitTest
    (visits : ∀ head ∈ heads (exitTest (ι := ι) present exit) pc d, S head.position head.depth)
    (stop : S (pc + present.toNat) d) : S pc d := by
  cases present with
  | false => exact stop
  | true => exact visits _ List.mem_cons_self

/-- A label is the beginning of a component. -/
theorem starts_labelPos
    (visits : ∀ head ∈ heads (flatten t c pc) pc d, S head.position head.depth)
    (stop : S (pc + size c) d) (n : Nat) : S (labelPos c pc n) d := by
  induction c generalizing pc n with
  | seq a b iha ihb =>
      cases n with
      | zero => exact starts visits stop
      | succ n =>
          rw [flatten, heads_append, depthBehind_flatten, length_flatten,
            List.forall_mem_append] at visits
          rw [size, ← Nat.add_assoc] at stop
          exact ihb visits.2 stop n
  | _ => exact starts visits stop

variable (S) in
/-- A jump leads to a place in `S`. -/
def Aims (target : Int) (d : Nat) : Prop :=
  0 ≤ target ∧ S target.toNat d

theorem aims_natCast {n : Nat} (place : S n d) : Aims S n d :=
  ⟨Int.natCast_nonneg n, place⟩

variable (S) in
/-- From an instruction, control goes on to places in `S`. -/
def Leads (M : Meaning ι σ ε ρ) : Head ι → Prop
  | ⟨p, d, .op i⟩ => ∀ s s', M.op i s = .next s' → S (p + 1 + Operation.width i) d
  | ⟨_, _, .data _ _⟩ => False
  | ⟨_, d, .jump target⟩ => Aims S target d
  | ⟨p, d, .jumpIfFalse target⟩ => S (p + 1) d ∧ Aims S target d
  | ⟨p, d, .guard target⟩ => S (p + 1) (d + 1) ∧ Aims S target d
  | ⟨p, d, .unguard⟩ => 0 < d ∧ S (p + 1) (d - 1)

variable {M : Meaning ι σ ε ρ}

theorem leads_exitTest (onward : S (pc + present.toNat) d) (leaves : S exit d) :
    ∀ head ∈ heads (exitTest (ι := ι) present exit) pc d, Leads S M head := by
  intro head mem
  cases present with
  | false => cases mem
  | true =>
      rw [List.mem_singleton.mp mem]
      exact ⟨onward, aims_natCast leaves⟩

/-- **Control stays in code**, if its end and the targets of its holes belong to it. -/
theorem leads (mono : ∀ {p d d'}, S p d → d ≤ d' → S p d')
    (visits : ∀ head ∈ heads (flatten t c pc) pc d, S head.position head.depth)
    (stop : S (pc + size c) d) (holes : ∀ hole ∈ holes c pc, Aims S (t hole.1) d) :
    ∀ head ∈ heads (flatten t c pc) pc d, Leads S M head := by
  induction c generalizing t pc d with
  | skip => exact List.forall_mem_nil _
  | op i =>
      rw [heads_op, List.forall_mem_singleton]
      intro s s' goes
      rw [Nat.add_assoc]
      exact stop
  | seq a b iha ihb =>
      simp only [flatten, heads_append, depthBehind_flatten, length_flatten,
        List.forall_mem_append] at visits ⊢
      rw [size, ← Nat.add_assoc] at stop
      rw [Code.holes, List.forall_mem_append] at holes
      exact ⟨iha visits.1 (starts visits.2 stop) holes.1, ihb visits.2 stop holes.2⟩
  | ifThen a iha =>
      rw [size, ← Nat.add_assoc] at stop
      obtain ⟨-, visits⟩ := List.forall_mem_cons.mp visits
      exact List.forall_mem_cons.mpr ⟨⟨starts visits stop, aims_natCast stop⟩,
        iha visits stop holes⟩
  | ifElse a b iha ihb =>
      have stop' : S (pc + 2 + size a + size b) d := by
        rw [size, ← Nat.add_assoc, ← Nat.add_assoc] at stop
        exact stop
      have middle : pc + 1 + size a + 1 = pc + 2 + size a := by omega
      simp only [flatten, List.cons_append, heads, heads_append, Flat.depth,
        depthBehind_flatten, length_flatten, List.forall_mem_cons, List.forall_mem_append,
        middle] at visits ⊢
      obtain ⟨-, inA, jump, inB⟩ := visits
      rw [Code.holes, List.forall_mem_append] at holes
      exact ⟨⟨starts inA jump, aims_natCast (starts inB stop')⟩, iha inA jump holes.1,
        aims_natCast stop', ihb inB stop' holes.2⟩
  | loop pre preTest body post postTest contAtTop ihp ihb ihq =>
      simp only [size, ← Nat.add_assoc] at stop
      simp only [flatten, heads_append, depthBehind_append, depthBehind_flatten,
        depthBehind_exitTest, List.length_append, length_flatten, length_exitTest, ← Nat.add_assoc,
        List.forall_mem_append] at visits ⊢
      obtain ⟨⟨⟨⟨⟨inPre, inPreTest⟩, inBody⟩, inPost⟩, inPostTest⟩, back⟩ := visits
      have atTest := starts_exitTest inPostTest (back _ List.mem_cons_self)
      have atPost := starts inPost atTest
      have atBody := starts inBody atPost
      have atPreTest := starts_exitTest inPreTest atBody
      have atTop := starts inPre atPreTest
      simp only [Code.holes, List.forall_mem_append, List.mem_filter] at holes
      obtain ⟨⟨holesPre, holesBody⟩, holesPost⟩ := holes
      refine ⟨⟨⟨⟨⟨ihp inPre atPreTest holesPre, leads_exitTest atBody stop⟩, ?_⟩,
        ihq inPost atTest holesPost⟩,
        leads_exitTest (back _ List.mem_cons_self) stop⟩,
        List.forall_mem_singleton.mpr (aims_natCast atTop)⟩
      apply ihb inBody atPost
      rintro ⟨kind, pos⟩ mem
      cases kind with
      | brk => exact aims_natCast stop
      | cont =>
          cases contAtTop with
          | true => exact aims_natCast atTop
          | false => exact aims_natCast atPost
      | label n => exact holesBody _ ⟨mem, rfl⟩
  | guard a iha =>
      have stop' : S (pc + 1 + size a + 1) d := by
        rw [size] at stop
        rw [show pc + 1 + size a + 1 = pc + (2 + size a) by omega]
        exact stop
      simp only [flatten, List.cons_append, heads, heads_append, Flat.depth,
        depthBehind_flatten, length_flatten, List.forall_mem_cons, List.forall_mem_append]
        at visits ⊢
      obtain ⟨-, inside, close, -⟩ := visits
      refine ⟨⟨starts inside close, ?_⟩, iha inside close fun hole mem => ?_,
        ⟨Nat.succ_pos d, stop'⟩, List.forall_mem_nil _⟩
      · rw [show pc + 2 + size a = pc + 1 + size a + 1 by omega]
        exact aims_natCast stop'
      · -- the handler is left behind
        exact ⟨(holes hole mem).1, mono (holes hole mem).2 (Nat.le_succ d)⟩
  | brk => exact List.forall_mem_singleton.mpr (holes _ List.mem_cons_self)
  | cont => exact List.forall_mem_singleton.mpr (holes _ List.mem_cons_self)
  | branch n =>
      exact List.forall_mem_singleton.mpr ⟨stop, holes _ List.mem_cons_self⟩
  | goto n => exact List.forall_mem_singleton.mpr (holes _ List.mem_cons_self)
  | switch dispatch bodies ihd ihb =>
      simp only [flatten, heads_append, depthBehind_flatten, length_flatten,
        List.forall_mem_append] at visits ⊢
      rw [size, ← Nat.add_assoc] at stop
      simp only [Code.holes, List.forall_mem_append, List.mem_filter] at holes
      refine ⟨ihd visits.1 (starts visits.2 stop) ?_, ihb visits.2 stop ?_⟩
      · rintro ⟨kind, pos⟩ mem
        cases kind with
        | label n => exact aims_natCast (starts_labelPos visits.2 stop n)
        | _ => exact holes.1 _ ⟨mem, rfl⟩
      · rintro ⟨kind, pos⟩ mem
        cases kind with
        | brk => exact aims_natCast stop
        | _ => exact holes.2 _ ⟨mem, rfl⟩
  | stmt nested a iha => exact iha visits stop holes

end Code

/-! ## Machines -/

namespace Host

variable {M : Meaning ι σ ε ρ} {C φ α : Type*} (H : Host M C φ) (S : Nat → Nat → Prop)

/-- Every handler resumes in `S`, with the handlers below it. -/
inductive Backed : List φ → Prop
  | nil : Backed []
  | cons {target : Nat} (entered : σ) {frames : List φ} (place : S target frames.length)
      (below : Backed frames) : Backed (H.frame target entered :: frames)

/-- The machine is in `S` or at an end. -/
def Inside : Next C ρ → Prop
  | .running c => ∃ p frames s, c = H.config p frames s ∧ S p frames.length ∧ H.Backed S frames
  | .done _ => True

/-- Control does not leave `S`; with more handlers it does not either. -/
structure Closed : Prop where
  mono : ∀ {p d d'}, S p d → d ≤ d' → S p d'
  goes : ∀ {p d}, S p d → ∃ f, ∃ d' ≤ d, H.Does f p ∧ Code.Leads S M ⟨p, d', f⟩

namespace Closed

variable {H S} {p : Nat} {frames : List φ} {s : σ}

omit [Operation ι] in
theorem trap (backed : H.Backed S frames) (e : ε) : H.Inside S (H.trap frames e s) := by
  cases backed with
  | nil =>
      rw [H.trap_nil]
      exact trivial
  | cons entered place below =>
      rw [H.trap_cons]
      exact ⟨_, _, _, rfl, place, below⟩

omit [Operation ι] in
theorem handle (backed : H.Backed S frames) {d : Did σ ε ρ α} {onward : α → Next C ρ}
    (goes : ∀ a, d = .next a → H.Inside S (onward a)) :
    H.Inside S (H.handle frames d onward) := by
  cases d with
  | next a => exact goes a rfl
  | raise e s => exact trap backed e
  | stop r => exact trivial

/-- One step. -/
theorem config (closed : H.Closed S) (place : S p frames.length) (backed : H.Backed S frames) :
    H.Inside S (H.step (H.config p frames s)) := by
  obtain ⟨f, d, le, does, leads⟩ := closed.goes place
  have here {q d' : Nat} (place : S q d') (le : d' ≤ frames.length) (s : σ) :
      H.Inside S (H.here q frames s) :=
    ⟨q, frames, s, rfl, closed.mono place le, backed⟩
  cases f with
  | op i =>
      rw [does]
      exact handle backed fun s' goes => here (leads _ _ goes) le s'
  | data i k => exact leads.elim
  | jump target =>
      rw [does]
      exact handle backed fun s' _ => here leads.2 le s'
  | jumpIfFalse target =>
      rw [does]
      refine handle backed fun tested _ => ?_
      obtain ⟨holds, s'⟩ := tested
      cases holds with
      | true => exact here leads.1 le s'
      | false => exact here leads.2.2 le s'
  | guard target =>
      rw [does]
      exact handle backed fun s' _ => ⟨p + 1, _, s', rfl,
        closed.mono leads.1 (Nat.succ_le_succ le), .cons s' (closed.mono leads.2.2 le) backed⟩
  | unguard =>
      cases backed with
      | nil => exact absurd (Nat.lt_of_lt_of_le leads.1 le) (Nat.lt_irrefl 0)
      | @cons target entered frames place' below =>
          rw [does]
          exact handle below fun s' _ => ⟨p + 1, frames, s', rfl,
            closed.mono leads.2 (Nat.sub_le_of_le_add le), below⟩

theorem step (closed : H.Closed S) {c : C} (inside : H.Inside S (.running c)) :
    H.Inside S (H.step c) := by
  obtain ⟨p, frames, s, rfl, place, backed⟩ := inside
  exact closed.config place backed

end Closed

/-- The instructions of some flat code, with enough handlers. -/
def Within (flat : List (Flat ι)) (pc q d : Nat) : Prop :=
  ∃ head ∈ heads flat pc 0, head.position = q ∧ head.depth ≤ d

theorem does_of_mem_heads {flat : List (Flat ι)} {p d : Nat} (placed : H.Placed flat p) :
    ∀ head ∈ heads flat p d, H.Does head.instr head.position := by
  induction flat generalizing p d with
  | nil => exact List.forall_mem_nil _
  | cons f flat ih =>
      cases f with
      | data i k => exact ih placed.2
      | _ => exact List.forall_mem_cons.mpr ⟨placed.1, ih placed.2⟩

omit [Operation ι] in
/-- An instruction is within its code. -/
theorem within_self {flat : List (Flat ι)} {pc : Nat} :
    ∀ head ∈ heads flat pc 0, Within flat pc head.position head.depth :=
  fun head mem => ⟨head, mem, rfl, Nat.le_refl _⟩

omit [Operation ι] in
theorem Within.mono {flat : List (Flat ι)} {pc q d d' : Nat} (place : Within flat pc q d)
    (le : d ≤ d') : Within flat pc q d' := by
  obtain ⟨head, mem, position, depth⟩ := place
  exact ⟨head, mem, position, Nat.le_trans depth le⟩

section

variable {c : Code ι} {last : ι} {t : Targets} {pc : Nat}

theorem heads_seq_op (d : Nat) : heads ((Code.seq c (.op last)).flatten t pc) pc d =
    heads (c.flatten t pc) pc d ++ [⟨pc + c.size, d, .op last⟩] := by
  rw [Code.flatten, heads_append, Code.depthBehind_flatten, Code.length_flatten, Code.heads_op]

theorem within_start : Within ((Code.seq c (.op last)).flatten t pc) pc pc 0 := by
  have visits := @within_self ι ((Code.seq c (.op last)).flatten t pc) pc
  rw [heads_seq_op, List.forall_mem_append, List.forall_mem_singleton] at visits
  exact Code.starts visits.1 visits.2

/-- **Control stays in a function**: code without holes, and behind it an operation that does not
go on. -/
theorem leads_within (holes : c.holes pc = []) (ends : ∀ s s', M.op last s ≠ .next s') :
    ∀ head ∈ heads ((Code.seq c (.op last)).flatten t pc) pc 0,
      Code.Leads (Within ((Code.seq c (.op last)).flatten t pc) pc) M head := by
  have visits := @within_self ι ((Code.seq c (.op last)).flatten t pc) pc
  rw [heads_seq_op, List.forall_mem_append, List.forall_mem_singleton] at visits ⊢
  refine ⟨Code.leads Within.mono visits.1 visits.2 ?_, fun s s' goes => absurd goes (ends s s')⟩
  rw [holes]
  exact List.forall_mem_nil _

theorem closed_within (placed : H.Placed ((Code.seq c (.op last)).flatten t pc) pc)
    (holes : c.holes pc = []) (ends : ∀ s s', M.op last s ≠ .next s') :
    H.Closed (Within ((Code.seq c (.op last)).flatten t pc) pc) where
  mono := Within.mono
  goes := by
    rintro _ d ⟨head, mem, rfl, depth⟩
    exact ⟨head.instr, head.depth, depth, H.does_of_mem_heads placed head mem,
      leads_within holes ends head mem⟩

end

end Host

end Kjdmud.Structured
