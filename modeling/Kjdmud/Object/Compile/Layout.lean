import Kjdmud.Object.Compile.Linked
import Mathlib.Data.List.Nodup

/-!
# The layout of object variables under inheritance

The variables of a linked program lie in blocks, one for every path through its
inherit tree, and the recorded offsets are the positions of those blocks.  Where
no file is reached by two inherit paths, the offset that is found for an ancestor
leads to its own block.
-/

namespace Kjdmud.Object

open Kjdmud.Vm (CompiledProgram)

/-! ## Placements -/

mutual

/-- The proper ancestors of a program, once for every path that leads to them,
each with the slot at which the program holds its variables. -/
def placements : CompiledProgram → List (CompiledProgram × Nat)
  | ⟨_, _, _, _, _, _, _, inheritedPrograms, _⟩ => placementsFrom 0 inheritedPrograms

/-- The ancestors that the parents lead to, the first parent's variables starting
at slot `base`. -/
def placementsFrom (base : Nat) : List CompiledProgram → List (CompiledProgram × Nat)
  | [] => []
  | parent :: parents =>
      ((parent, base) :: (placements parent).map fun placed => (placed.1, base + placed.2)) ++
        placementsFrom (base + parent.objectVarNames.length) parents

end

/-- The object variables that the parents of a program hold. -/
def inheritedCount (parents : List CompiledProgram) : Nat :=
  (parents.flatMap CompiledProgram.objectVarNames).length

/-! ## The recorded offsets -/

theorem placements_eq (program : CompiledProgram) :
    placements program = placementsFrom 0 program.inheritedPrograms := by
  cases program
  rw [placements]

theorem inheritedFiles_eq (program : CompiledProgram) :
    inheritedFiles program = filesOf program.inherits program.inheritedPrograms := by
  cases program
  rw [inheritedFiles]

/-- The recorded offsets are those of the placements of a program. -/
def RecordsPlacements (program : CompiledProgram) : Prop :=
  ∀ entry, entry ∈ program.ancestorBaseOffsets ↔
    ∃ placed ∈ placements program, (placed.1.id, placed.2) = entry

theorem mem_offsets_add {parent : CompiledProgram} (records : RecordsPlacements parent)
    (inherited : Inherited) (entry : Nat × Nat) :
    entry ∈ (inherited.add parent).ancestorBaseOffsets ↔
      entry ∈ inherited.ancestorBaseOffsets ∨
        ∃ placed ∈ placementsFrom inherited.objectVarNames.length [parent],
          (placed.1.id, placed.2) = entry := by
  simp only [Inherited.add, placementsFrom, List.append_nil, List.mem_append, List.mem_cons,
    List.mem_map, records _]
  constructor
  · rintro (⟨_, ⟨placed, mem, rfl⟩, rfl⟩ | rfl | mem)
    · exact .inr ⟨_, .inr ⟨placed, mem, rfl⟩, rfl⟩
    · exact .inr ⟨_, .inl rfl, rfl⟩
    · exact .inl mem
  · rintro (mem | ⟨_, rfl | ⟨placed, mem, rfl⟩, rfl⟩)
    · exact .inr (.inr mem)
    · exact .inr (.inl rfl)
    · exact .inl ⟨_, ⟨placed, mem, rfl⟩, rfl⟩

theorem mem_offsets_foldl_add {parents : List CompiledProgram}
    (records : ∀ parent ∈ parents, RecordsPlacements parent) (inherited : Inherited)
    (entry : Nat × Nat) :
    entry ∈ (parents.foldl Inherited.add inherited).ancestorBaseOffsets ↔
      entry ∈ inherited.ancestorBaseOffsets ∨
        ∃ placed ∈ placementsFrom inherited.objectVarNames.length parents,
          (placed.1.id, placed.2) = entry := by
  induction parents generalizing inherited with
  | nil => simp only [List.foldl_nil, placementsFrom, List.not_mem_nil, false_and, exists_false,
      or_false]
  | cons parent parents inductionHypothesis =>
      have names : (inherited.add parent).objectVarNames.length =
          inherited.objectVarNames.length + parent.objectVarNames.length :=
        List.length_append
      rw [List.foldl_cons,
        inductionHypothesis fun parent mem => records parent (List.mem_cons_of_mem _ mem),
        mem_offsets_add (records parent List.mem_cons_self), names]
      simp only [placementsFrom, List.append_nil, List.mem_append, or_and_right, exists_or,
        or_assoc]

theorem Linked.recordsPlacements {file : Nat → Str} {program : CompiledProgram}
    (linked : Linked file program) : RecordsPlacements program := by
  induction linked with
  | @intro program node _ inductionHypothesis =>
      intro entry
      rw [node.offsets, placements_eq, mem_offsets_foldl_add inductionHypothesis]
      exact or_iff_right List.not_mem_nil

/-! ## Blocks of variables -/

/-- The slots that a placed program itself declares, in the program it is placed
in. -/
def DeclaresSlot (placed : CompiledProgram × Nat) (slot : Nat) : Prop :=
  placed.2 + inheritedCount placed.1.inheritedPrograms ≤ slot ∧
    slot < placed.2 + placed.1.objectVarNames.length

/-- The names in a block of variables are those of the program placed there. -/
def HoldsNames (names : List Str) (placed : CompiledProgram × Nat) : Prop :=
  ∀ i < placed.1.objectVarNames.length,
    names[placed.2 + i]? = placed.1.objectVarNames[i]?

theorem HoldsNames.bound {names : List Str} {placed : CompiledProgram × Nat}
    (holds : HoldsNames names placed) {i : Nat} (inside : i < placed.1.objectVarNames.length) :
    placed.2 + i < names.length := by
  have here := holds i inside
  rw [List.getElem?_eq_getElem inside] at here
  exact (List.getElem?_eq_some_iff.1 here).1

/-- Seen from further out, a block lies further on. -/
theorem HoldsNames.shift {names : List Str} {placed : CompiledProgram × Nat}
    (holds : HoldsNames names placed) (before after : List Str) :
    HoldsNames (before ++ names ++ after) (placed.1, before.length + placed.2) := by
  intro i inside
  have bound := holds.bound inside
  rw [Nat.add_assoc, List.append_assoc, List.getElem?_append_right (Nat.le_add_right _ _),
    Nat.add_sub_cancel_left, List.getElem?_append_left bound]
  exact holds i inside

theorem holdsNames_placementsFrom {parents : List CompiledProgram}
    (known : ∀ parent ∈ parents, ∀ placed ∈ placements parent,
      HoldsNames parent.objectVarNames placed) (before after : List Str) :
    ∀ placed ∈ placementsFrom before.length parents,
      HoldsNames (before ++ parents.flatMap CompiledProgram.objectVarNames ++ after) placed := by
  induction parents generalizing before with
  | nil =>
      intro placed mem
      rw [placementsFrom] at mem
      cases mem
  | cons parent parents inductionHypothesis =>
      intro placed mem
      rw [placementsFrom, List.mem_append] at mem
      have tail := inductionHypothesis
        (fun parent mem => known parent (List.mem_cons_of_mem _ mem))
        (before ++ parent.objectVarNames)
      rw [List.length_append] at tail
      rw [List.flatMap_cons, ← List.append_assoc before]
      rcases mem with mem | mem
      · have whole (placed : CompiledProgram × Nat)
            (holds : HoldsNames parent.objectVarNames placed) :=
          holds.shift before (parents.flatMap CompiledProgram.objectVarNames ++ after)
        rw [List.append_assoc _ _ after]
        rcases List.mem_cons.1 mem with rfl | mem
        · exact whole (parent, 0) fun i _ => by rw [Nat.zero_add]
        · obtain ⟨placed, inner, rfl⟩ := List.mem_map.1 mem
          exact whole placed (known parent List.mem_cons_self placed inner)
      · exact tail placed mem

/-- Every ancestor's variables lie where it is placed. -/
theorem Linked.holdsNames {file : Nat → Str} {program : CompiledProgram}
    (linked : Linked file program) :
    ∀ placed ∈ placements program, HoldsNames program.objectVarNames placed := by
  induction linked with
  | @intro program node _ inductionHypothesis =>
      obtain ⟨own, names⟩ := node.names
      rw [placements_eq, names]
      exact holdsNames_placementsFrom inductionHypothesis [] own

/-- No slot is declared by both. -/
def Separate (placed placed' : CompiledProgram × Nat) : Prop :=
  ∀ slot, DeclaresSlot placed slot → ¬ DeclaresSlot placed' slot

theorem Separate.shift {placed placed' : CompiledProgram × Nat}
    (separate : Separate placed placed') (base : Nat) :
    Separate (placed.1, base + placed.2) (placed'.1, base + placed'.2) := by
  rintro slot ⟨low, high⟩ ⟨low', high'⟩
  simp only at low high low' high'
  exact separate (slot - base) ⟨by omega, by omega⟩ ⟨by omega, by omega⟩

theorem inheritedCount_cons (parent : CompiledProgram) (parents : List CompiledProgram) :
    inheritedCount (parent :: parents) =
      parent.objectVarNames.length + inheritedCount parents := by
  rw [inheritedCount, List.flatMap_cons, List.length_append, inheritedCount]

theorem Linked.inheritedCount_le {file : Nat → Str} {program : CompiledProgram}
    (linked : Linked file program) :
    inheritedCount program.inheritedPrograms ≤ program.objectVarNames.length := by
  obtain ⟨own, names⟩ := linked.node.names
  rw [names, List.length_append, inheritedCount]
  exact Nat.le_add_right _ _

/-- The block of a placed program lies between two slots. -/
def Within (low high : Nat) (placed : CompiledProgram × Nat) : Prop :=
  low ≤ placed.2 ∧ placed.2 + placed.1.objectVarNames.length ≤ high

theorem within_placementsFrom (parents : List CompiledProgram)
    (known : ∀ parent ∈ parents, ∀ placed ∈ placements parent,
      Within 0 parent.objectVarNames.length placed) (base : Nat) :
    ∀ placed ∈ placementsFrom base parents,
      Within base (base + inheritedCount parents) placed := by
  induction parents generalizing base with
  | nil =>
      intro placed mem
      rw [placementsFrom] at mem
      cases mem
  | cons parent parents inductionHypothesis =>
      intro placed mem
      rw [placementsFrom, List.mem_append, List.mem_cons] at mem
      rw [inheritedCount_cons, ← Nat.add_assoc]
      rcases mem with (rfl | mem) | mem
      · exact ⟨Nat.le_refl _, Nat.le_add_right _ _⟩
      · obtain ⟨placed, inner, rfl⟩ := List.mem_map.1 mem
        have inside := (known parent List.mem_cons_self placed inner).2
        refine ⟨Nat.le_add_right _ _, ?_⟩
        simp only
        omega
      · have inside := inductionHypothesis
          (fun parent mem => known parent (List.mem_cons_of_mem _ mem)) _ placed mem
        exact ⟨(Nat.le_add_right _ _).trans inside.1, inside.2⟩

/-- The variables of an ancestor lie inside those that are inherited. -/
theorem Linked.within {file : Nat → Str} {program : CompiledProgram}
    (linked : Linked file program) :
    ∀ placed ∈ placements program,
      Within 0 (inheritedCount program.inheritedPrograms) placed := by
  induction linked with
  | @intro program node parents inductionHypothesis =>
      rw [placements_eq]
      have inside := within_placementsFrom program.inheritedPrograms
        (fun parent mem placed mem' =>
          let inner := inductionHypothesis parent mem placed mem'
          ⟨inner.1, inner.2.trans (parents parent mem).inheritedCount_le⟩) 0
      rwa [Nat.zero_add] at inside

theorem Separate.of_within {low middle high : Nat} {placed placed' : CompiledProgram × Nat}
    (before : Within low middle placed) (after : Within middle high placed') :
    Separate placed placed' := by
  rintro slot ⟨_, below⟩ ⟨above, _⟩
  have := before.2
  have := after.1
  omega

/-- The blocks of the own variables of a program and its ancestors. -/
def Separated (program : CompiledProgram) : Prop :=
  ((program, 0) :: placements program).Pairwise Separate

theorem pairwise_placementsFrom {parents : List CompiledProgram}
    (linked : ∀ parent ∈ parents, ∃ file, Linked file parent)
    (known : ∀ parent ∈ parents, Separated parent) (base : Nat) :
    (placementsFrom base parents).Pairwise Separate := by
  induction parents generalizing base with
  | nil =>
      rw [placementsFrom]
      exact .nil
  | cons parent parents inductionHypothesis =>
      have inside : ∀ parent' ∈ parent :: parents, ∀ placed ∈ placements parent',
          Within 0 parent'.objectVarNames.length placed := by
        intro parent' mem placed mem'
        obtain ⟨file, linked⟩ := linked parent' mem
        have inner := linked.within placed mem'
        exact ⟨inner.1, inner.2.trans linked.inheritedCount_le⟩
      have head : (parent, base) :: (placements parent).map
          (fun placed => (placed.1, base + placed.2)) =
            ((parent, 0) :: placements parent).map fun placed => (placed.1, base + placed.2) :=
        rfl
      rw [placementsFrom, List.pairwise_append, head, List.pairwise_map]
      refine ⟨(known parent List.mem_cons_self).imp fun separate => separate.shift base,
        inductionHypothesis (fun parent mem => linked parent (List.mem_cons_of_mem _ mem))
          (fun parent mem => known parent (List.mem_cons_of_mem _ mem)) _, ?_⟩
      intro placed mem placed' mem'
      have before := within_placementsFrom [parent]
        (fun parent' mem => inside parent' (List.mem_cons.2 (.inl (List.mem_singleton.1 mem))))
        base placed (by rwa [placementsFrom, placementsFrom, List.append_nil, head])
      rw [inheritedCount_cons] at before
      have after := within_placementsFrom parents
        (fun parent' mem => inside parent' (List.mem_cons_of_mem _ mem)) _ placed' mem'
      exact .of_within before after

/-- The slots declared by different ancestors are different. -/
theorem Linked.separated {file : Nat → Str} {program : CompiledProgram}
    (linked : Linked file program) : Separated program := by
  induction linked with
  | @intro program node parents inductionHypothesis =>
      refine List.pairwise_cons.2 ⟨?_, ?_⟩
      · intro placed mem slot own other
        have inside := (Linked.intro node parents).within placed mem
        have := own.1
        have := other.2
        have := inside.2
        simp only at *
        omega
      · rw [placements_eq]
        exact pairwise_placementsFrom (fun parent mem => ⟨file, parents parent mem⟩)
          inductionHypothesis 0

/-! ## The base of an ancestor -/

/-- A program and its ancestors, each with the slot at which the program holds its
variables. -/
def placementsWithSelf (program : CompiledProgram) : List (CompiledProgram × Nat) :=
  (program, 0) :: placements program

theorem mem_placementsFrom {parents : List CompiledProgram} {parent : CompiledProgram}
    (mem : parent ∈ parents) (base : Nat) :
    ∃ start, ∀ placed ∈ placementsWithSelf parent,
      (placed.1, start + placed.2) ∈ placementsFrom base parents := by
  induction parents generalizing base with
  | nil => cases mem
  | cons first parents inductionHypothesis =>
      rcases List.mem_cons.1 mem with rfl | mem
      · refine ⟨base, fun placed inner => ?_⟩
        rw [placementsFrom]
        show _ ∈ (placementsWithSelf parent).map
          (fun placed => (placed.1, base + placed.2)) ++ _
        exact List.mem_append_left _ (List.mem_map.2 ⟨placed, inner, rfl⟩)
      · obtain ⟨start, all⟩ := inductionHypothesis mem (base + first.objectVarNames.length)
        refine ⟨start, fun placed inner => ?_⟩
        rw [placementsFrom]
        exact List.mem_append_right _ (all placed inner)

/-- Every program of the inherit tree is placed. -/
theorem InTree.placed {program ancestor : CompiledProgram} (above : InTree program ancestor) :
    ∃ base, (ancestor, base) ∈ placementsWithSelf program := by
  induction above with
  | root => exact ⟨0, List.mem_cons_self⟩
  | parent inherited _ inductionHypothesis =>
      obtain ⟨base, mem⟩ := inductionHypothesis
      obtain ⟨start, all⟩ := mem_placementsFrom inherited 0
      refine ⟨start + base, List.mem_cons_of_mem _ ?_⟩
      rw [placements_eq]
      exact all _ mem

theorem filesOf_eq {file : Nat → Str} {parents : List CompiledProgram}
    (known : ∀ parent ∈ parents,
      inheritedFiles parent = (placements parent).map fun placed => file placed.1.id)
    {inherits : List Str} (base : Nat)
    (files : inherits.map normalizeFilename = parents.map fun parent => file parent.id) :
    filesOf inherits parents =
      (placementsFrom base parents).map fun placed => file placed.1.id := by
  induction parents generalizing inherits base with
  | nil =>
      rw [filesOf, placementsFrom]
      · rfl
      · exact nofun
  | cons parent parents inductionHypothesis =>
      cases inherits with
      | nil => cases files
      | cons path inherits =>
          obtain ⟨here, files⟩ := List.cons.inj files
          rw [filesOf, placementsFrom, List.map_append,
            inductionHypothesis (fun parent mem => known parent (List.mem_cons_of_mem _ mem))
              (base + parent.objectVarNames.length) files,
            known parent List.mem_cons_self, here]
          simp only [List.map_cons, List.map_map, Function.comp_def]

/-- The files of an inherit tree are those of the placed programs. -/
theorem Linked.inheritedFiles {file : Nat → Str} {program : CompiledProgram}
    (linked : Linked file program) :
    inheritedFiles program = (placements program).map fun placed => file placed.1.id := by
  induction linked with
  | @intro program node _ inductionHypothesis =>
      rw [inheritedFiles_eq, placements_eq]
      exact filesOf_eq inductionHypothesis 0 node.files

theorem older_placementsFrom {bound : Nat} {parents : List CompiledProgram}
    (known : ∀ parent ∈ parents, ∀ placed ∈ placementsWithSelf parent, placed.1.id < bound)
    (base : Nat) : ∀ placed ∈ placementsFrom base parents, placed.1.id < bound := by
  induction parents generalizing base with
  | nil =>
      intro placed mem
      rw [placementsFrom] at mem
      cases mem
  | cons parent parents inductionHypothesis =>
      intro placed mem
      rw [placementsFrom, List.mem_append] at mem
      rcases mem with mem | mem
      · have head := known parent List.mem_cons_self
        rcases List.mem_cons.1 mem with rfl | mem
        · exact head (parent, 0) List.mem_cons_self
        · obtain ⟨placed, inner, rfl⟩ := List.mem_map.1 mem
          exact head placed (List.mem_cons_of_mem _ inner)
      · exact inductionHypothesis (fun parent mem => known parent (List.mem_cons_of_mem _ mem)) _
          placed mem

/-- Ancestors were compiled before. -/
theorem Linked.older {file : Nat → Str} {program : CompiledProgram}
    (linked : Linked file program) : ∀ placed ∈ placements program, placed.1.id < program.id := by
  induction linked with
  | @intro program node parents inductionHypothesis =>
      rw [placements_eq]
      refine older_placementsFrom (fun parent mem placed inner => ?_) 0
      rcases List.mem_cons.1 inner with rfl | inner
      · exact node.older parent mem
      · exact (inductionHypothesis parent mem placed inner).trans (node.older parent mem)

/-- The base of an ancestor: 0 for the program itself, else what is recorded in
`ancestorBaseOffsets`. -/
def recordedBase (program ancestor : CompiledProgram) : Option Nat :=
  if ancestor.id = program.id then some 0
  else program.ancestorBaseOffsets.lookup ancestor.id

/-- Where no file is reached by two inherit paths, the recorded base is where the
ancestor is placed. -/
theorem Linked.recordedBase {file : Nat → Str} {program ancestor : CompiledProgram} {base : Nat}
    (linked : Linked file program) (single : (Object.inheritedFiles program).Nodup)
    (placed : (ancestor, base) ∈ placementsWithSelf program) :
    recordedBase program ancestor = some base := by
  unfold Object.recordedBase
  rcases List.mem_cons.1 placed with isSelf | placed
  · cases isSelf
    rw [if_pos rfl]
  · rw [if_neg (linked.older _ placed).ne]
    rw [linked.inheritedFiles] at single
    have recorded := (linked.recordsPlacements (ancestor.id, base)).2 ⟨_, placed, rfl⟩
    cases found : program.ancestorBaseOffsets.lookup ancestor.id with
    | none =>
        exact absurd recorded fun mem => by
          have := List.lookup_eq_none_iff.1 found _ mem
          simp at this
    | some other =>
        obtain ⟨before, after, whole, _⟩ := List.lookup_eq_some_iff.1 found
        obtain ⟨placed', mem, sameEntry⟩ := (linked.recordsPlacements (ancestor.id, other)).1
          (whole ▸ List.mem_append_right _ List.mem_cons_self)
        have sameId : placed'.1.id = ancestor.id := congrArg Prod.fst sameEntry
        have same : placed' = (ancestor, base) :=
          List.inj_on_of_nodup_map single mem placed (congrArg file sameId)
        rw [same] at sameEntry
        exact congrArg some (congrArg Prod.snd sameEntry).symm

end Kjdmud.Object
