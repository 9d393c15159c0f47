import Kjdmud.Efun.Writers

/-!
# When the writers come to an end

Only arrays, mappings and closures of the heap lead a writer further, so its depth is bounded
by their number unless it enters a value that is below itself.  `%O` never does: its indent
grows in every array and mapping, and a closure is bound to values that are older than it.
-/

namespace Kjdmud.Efun

open Vm (Data Value Mapping Closure World Ref)
open Relation

/-! ## What leads further -/

/-- The arrays, mappings and closures of the heap. -/
def containers (w : World) : Finset Data :=
  (Finset.range w.arrays.length).image (fun r => .array (some r)) ∪
    (Finset.range w.mappings.length).image (fun r => .mapping (some r)) ∪
    (Finset.range w.closures.length).image (fun r => .closure (some r))

theorem card_containers_le (w : World) :
    (containers w).card ≤ w.arrays.length + w.mappings.length + w.closures.length := by
  have image : ∀ (n : Nat) (f : Nat → Data), ((Finset.range n).image f).card ≤ n := by
    intro n f
    exact (Finset.card_image_le).trans_eq (Finset.card_range n)
  unfold containers
  refine (Finset.card_union_le _ _).trans (Nat.add_le_add ?_ (image _ _))
  exact (Finset.card_union_le _ _).trans (Nat.add_le_add (image _ _) (image _ _))

theorem array_mem_containers {w : World} {ref : Option Ref} (inhabited : arrayItems w ref ≠ []) :
    .array ref ∈ containers w := by
  cases ref with
  | none => exact absurd rfl inhabited
  | some r =>
      have inside : r < w.arrays.length := by
        by_contra outside
        apply inhabited
        have missing : w.arrays[r]? = none := List.getElem?_eq_none (Nat.le_of_not_lt outside)
        simp only [arrayItems, Option.map_some, Option.getD_some, World.array, missing,
          Option.getD_none]
      apply Finset.mem_union_left
      apply Finset.mem_union_left
      exact Finset.mem_image_of_mem _ (Finset.mem_range.mpr inside)

theorem mapping_mem_containers {w : World} {ref : Option Ref}
    (inhabited : (mappingContents w ref).entries ≠ []) : .mapping ref ∈ containers w := by
  cases ref with
  | none => exact absurd rfl inhabited
  | some r =>
      have inside : r < w.mappings.length := by
        by_contra outside
        apply inhabited
        have missing : w.mappings[r]? = none := List.getElem?_eq_none (Nat.le_of_not_lt outside)
        simp only [mappingContents, Option.map_some, Option.getD_some, World.mapping, missing,
          Option.getD_none]
      apply Finset.mem_union_left
      apply Finset.mem_union_right
      exact Finset.mem_image_of_mem _ (Finset.mem_range.mpr inside)

theorem closure_mem_containers {w : World} {r : Ref} {c : Closure}
    (there : w.closures[r]? = some c) : .closure (some r) ∈ containers w := by
  apply Finset.mem_union_right
  apply Finset.mem_image_of_mem
  exact Finset.mem_range.mpr (List.getElem?_eq_some_iff.mp there).1

theorem node_mem_of_enters {β N E : Type} {visit : N → List (Walk.Piece β N E)} {n m : N}
    (enters : Walk.Enters visit n m) : .node m ∈ visit n := by
  rcases enters with ⟨before, after, same, -⟩
  rw [same]
  exact List.mem_append_right _ List.mem_cons_self

theorem mem_containers_of_save {w : World} {n m : Data} (member : .node m ∈ saveVisit w n) :
    n ∈ containers w := by
  cases n with
  | array ref =>
      apply array_mem_containers
      intro empty
      simp [saveVisit, empty] at member
  | mapping ref =>
      apply mapping_mem_containers
      intro empty
      simp [saveVisit, empty] at member
  | _ => simp [saveVisit] at member

theorem mem_containers_of_legacy {showDouble : Double → Str} {w : World} {n m : Data}
    (member : .node m ∈ legacyVisit showDouble w n) : n ∈ containers w := by
  cases n with
  | array ref =>
      apply array_mem_containers
      intro empty
      simp [legacyVisit, empty] at member
  | mapping ref =>
      apply mapping_mem_containers
      intro empty
      rw [legacyVisit, empty] at member
      by_cases wide : (mappingContents w ref).width > 1
      · rw [if_pos wide] at member
        cases List.mem_singleton.mp member
      · rw [if_neg wide, List.flatMap_nil] at member
        cases List.mem_singleton.mp member
  | _ => simp [legacyVisit] at member

theorem mem_containers_of_world {showDouble : Double → Str} {idOfObject : ObjectId → Option Nat}
    {w : World} {n m : Data} (member : .node m ∈ worldVisit showDouble idOfObject w n) :
    n ∈ containers w := by
  cases n with
  | array ref =>
      apply array_mem_containers
      intro empty
      simp [worldVisit, empty] at member
  | mapping ref =>
      apply mapping_mem_containers
      intro empty
      simp [worldVisit, empty] at member
  | closure ref =>
      cases ref with
      | none => simp [worldVisit] at member
      | some r =>
          rw [worldVisit] at member
          cases there : w.closures[r]? with
          | none => simp [there] at member
          | some c => exact closure_mem_containers there
  | object ob =>
      cases ob with
      | none => simp [worldVisit] at member
      | some ob =>
          rw [worldVisit] at member
          split at member <;> simp at member
  | _ => simp [worldVisit] at member

theorem mem_containers_of_json {showDouble : Double → Str} {w : World} {n m : Data}
    (member : .node m ∈ jsonVisit showDouble w n) : n ∈ containers w := by
  cases n with
  | array ref =>
      apply array_mem_containers
      intro empty
      simp [jsonVisit, empty] at member
  | mapping ref =>
      apply mapping_mem_containers
      intro empty
      simp only [jsonVisit, empty] at member
      split at member <;> simp at member
  | _ => simp [jsonVisit] at member

/-! ## `%O` -/

/-- The containers at every indent that `%O` descends from. -/
def indentedContainers (w : World) : Finset (Data × Nat) :=
  containers w ×ˢ Finset.range 21

/-- What a call of `valueToDebugString` calls itself for: a deeper indent, or, at the same
indent, what a closure is bound to. -/
structure Descends (w : World) (n m : Data × Nat) : Prop where
  inner : n ∈ indentedContainers w
  deeper : n.2 < m.2 ∨ n.2 = m.2 ∧ ∃ r c bound, n.1 = .closure (some r) ∧
    w.closures[r]? = some c ∧ bound ∈ c.boundArgs ∧ m.1 = bound.data

theorem descends_of_debug {w : World} {n m : Data × Nat}
    (member : .node m ∈ debugVisit w n) : Descends w n m := by
  rcases n with ⟨data, indent⟩
  by_cases guarded : indent > 20
  · simp [debugVisit, guarded] at member
  · have inside : data ∈ containers w → (data, indent) ∈ indentedContainers w := fun container =>
      Finset.mem_product.mpr ⟨container, Finset.mem_range.mpr (by omega)⟩
    cases data with
    | array ref =>
        by_cases empty : arrayItems w ref = []
        · simp [debugVisit, guarded, empty] at member
        · have found : ∃ item : Value, (∃ i, (item, i) ∈ (arrayItems w ref).zipIdx) ∧
              m = (item.data, indent + 2) := by
            simpa [debugVisit, guarded, empty, indented] using member
          rcases found with ⟨item, -, rfl⟩
          exact ⟨inside (array_mem_containers empty), .inl (Nat.lt_add_of_pos_right (by decide))⟩
    | mapping ref =>
        by_cases empty : (mappingContents w ref).entries = []
        · simp [debugVisit, guarded, empty] at member
        · have found : ∃ key value : Value, (key, value) ∈ (mappingContents w ref).entries ∧
              (m = (key.data, indent + 2) ∨ m = (value.data, indent + 4)) := by
            simpa [debugVisit, guarded, empty, indented] using member
          rcases found with ⟨key, value, -, rfl | rfl⟩
          · exact ⟨inside (mapping_mem_containers empty),
              .inl (Nat.lt_add_of_pos_right (by decide))⟩
          · exact ⟨inside (mapping_mem_containers empty),
              .inl (Nat.lt_add_of_pos_right (by decide))⟩
    | closure ref =>
        cases ref with
        | none => simp [debugVisit, guarded] at member
        | some r =>
            cases there : w.closures[r]? with
            | none => simp [debugVisit, guarded, there] at member
            | some c =>
                have found : ∃ bound ∈ c.boundArgs, m = (bound.data, indent) := by
                  simpa [debugVisit, guarded, there, indented] using member
                rcases found with ⟨bound, held, rfl⟩
                exact ⟨inside (closure_mem_containers there),
                  .inr ⟨rfl, r, c, bound, rfl, there, held, rfl⟩⟩
    | object ob =>
        cases ob with
        | none => simp [debugVisit, guarded] at member
        | some ob =>
            simp only [debugVisit, guarded, if_false] at member
            split at member <;> simp at member
    | _ => simp [debugVisit, guarded] at member

/-! ## The heaps of LPC -/

/-- A value that refers to no closure that is yet to be made. -/
def Known (w : World) (v : Value) : Prop :=
  ∀ r, v.data = .closure (some r) → r < w.closures.length

/-- The heaps that a run can make: arrays and mappings are made and assigned to with any values,
a closure is bound to values that are there before it. -/
inductive Built : World → Prop
  | empty {w : World} (none_ : w.closures = []) : Built w
  | newArray {w : World} (items : List Value) (built : Built w) : Built (w.newArray items).1
  | newMapping {w : World} (m : Mapping) (built : Built w) : Built (w.newMapping m).1
  | newClosure {w : World} (c : Closure) (built : Built w)
      (known : ∀ bound ∈ c.boundArgs, Known w bound) : Built (w.newClosure c).1
  | setArray {w : World} (ref : Ref) (items : List Value) (built : Built w) :
      Built (w.setArray ref items)
  | setMapping {w : World} (ref : Ref) (m : Mapping) (built : Built w) :
      Built (w.setMapping ref m)
  /-- `reclaim_objects` sets what a closure is bound to to 0 where it is a destructed object. -/
  | sweep {w w' : World} (ref : Ref) (i : Nat) (built : Built w)
      (closures : w'.closures = w.closures.modify ref fun c =>
        { c with boundArgs := c.boundArgs.set i (.int 0) }) : Built w'
  /-- What does not concern the closures. -/
  | other {w w' : World} (built : Built w) (closures : w'.closures = w.closures) : Built w'

/-- A closure is bound to older closures only. -/
def ClosuresOlder (closures : List Closure) : Prop :=
  ∀ (r : Ref) (c : Closure), closures[r]? = some c → ∀ bound ∈ c.boundArgs, ∀ r' : Ref,
    bound.data = .closure (some r') → r' < r

theorem Built.closuresOlder {w : World} (built : Built w) : ClosuresOlder w.closures := by
  induction built with
  | empty none_ =>
      rw [none_]
      rintro r c ⟨⟩
  | newArray _ _ ih => exact ih
  | newMapping _ _ ih => exact ih
  | @newClosure w c built known ih =>
      intro r c' there bound held r' refers
      have there : (w.closures ++ [c])[r]? = some c' := there
      rcases Nat.lt_trichotomy r w.closures.length with old | new | outside
      · rw [List.getElem?_append_left old] at there
        exact ih r c' there bound held r' refers
      · rw [new, List.getElem?_concat_length] at there
        cases there
        exact new ▸ known bound held r' refers
      · have beyond : (w.closures ++ [c]).length ≤ r := by
          rw [List.length_append, List.length_singleton]
          exact outside
        rw [List.getElem?_eq_none beyond] at there
        cases there
  | setArray _ _ _ ih => exact ih
  | setMapping _ _ _ ih => exact ih
  | @sweep w w' ref i built closures ih =>
      rw [closures]
      intro r c there bound held r' refers
      rw [List.getElem?_modify] at there
      rcases Option.map_eq_some_iff.mp there with ⟨c', before, swept⟩
      split at swept
      · cases swept
        rcases List.mem_or_eq_of_mem_set held with kept | zero
        · exact ih r c' before bound kept r' refers
        · rw [zero] at refers
          cases refers
      · cases swept
        exact ih r _ before bound held r' refers
  | other _ closures ih => exact closures ▸ ih

/-! ## `%O` comes to an end -/

/-- The place of a closure among the closures. -/
def closureRank : Data → Nat
  | .closure (some r) => r + 1
  | _ => 0

/-- Along the calls of `%O` the indent grows, or it stays and the closures get older. -/
theorem debug_descends {w : World} (older : ClosuresOlder w.closures) {n m : Data × Nat}
    (path : TransGen (Walk.Enters (debugVisit w)) n m) :
    n.2 < m.2 ∨ n.2 = m.2 ∧ closureRank m.1 < closureRank n.1 := by
  have step : ∀ {n m : Data × Nat}, Walk.Enters (debugVisit w) n m →
      n.2 < m.2 ∨ n.2 = m.2 ∧ closureRank m.1 < closureRank n.1 := by
    intro n m enters
    rcases (descends_of_debug (node_mem_of_enters enters)).deeper with deeper | here
    · exact .inl deeper
    · rcases here with ⟨same, r, c, bound, is, there, held, entered⟩
      refine .inr ⟨same, ?_⟩
      rw [is, entered]
      cases data : bound.data with
      | closure ref =>
          cases ref with
          | none => exact Nat.succ_pos r
          | some r' => exact Nat.succ_lt_succ (older r c there bound held r' data)
      | _ => exact Nat.succ_pos r
  induction path with
  | single enters => exact step enters
  | tail _ enters ih =>
      have next := step enters
      omega

theorem not_looped_debug {w : World} (older : ClosuresOlder w.closures) (n : Data × Nat) :
    ¬ Walk.Looped (debugVisit w) n := by
  rintro ⟨m, -, loop⟩
  have descends := debug_descends older loop
  omega

/-! ## The five writers -/

theorem card_indentedContainers_le (w : World) :
    (indentedContainers w).card ≤
      21 * (w.arrays.length + w.mappings.length + w.closures.length) := by
  rw [indentedContainers, Finset.card_product, Finset.card_range, Nat.mul_comm]
  exact Nat.mul_le_mul_left 21 (card_containers_le w)

/-- A writer that descends from containers only ends within the bound unless it enters a value
that is below itself. -/
theorem write_isSome_iff_of_containers {w : World} {visit : Data → List (WriterStep Data)}
    (inner : ∀ n m, .node m ∈ visit n → n ∈ containers w) (data : Data) :
    (Walk.write visit (stackBound w) data).isSome ↔ ¬ Walk.Looped visit data := by
  have few : (containers w).card ≤
      21 * (w.arrays.length + w.mappings.length + w.closures.length) :=
    (card_containers_le w).trans (Nat.le_mul_of_pos_left _ (by decide))
  exact Walk.write_isSome_iff few
    (fun k m enters => inner k m (node_mem_of_enters enters)) data

namespace Writer

/-- On every heap of LPC a writer comes to an end within the depth that the heap allows, with a
text or an error, exactly when it is `%O` or enters no value that is below itself. -/
theorem finishes_iff (writer : Writer) (env : WriterEnv) {w : World} (v : Value)
    (built : Built w) :
    writer.Finishes env w v ↔ writer = .debug ∨ ¬ writer.Looped env w v := by
  have plain : ∀ {visit : Data → List (WriterStep Data)} {writer : Writer},
      writer ≠ .debug → (∀ n m, .node m ∈ visit n → n ∈ containers w) →
      ((Walk.write visit (stackBound w) v.data).isSome ↔
        writer = .debug ∨ ¬ Walk.Looped visit v.data) := by
    intro visit writer other inner
    rw [write_isSome_iff_of_containers inner, or_iff_right other]
  cases writer with
  | saveVariable => exact plain (by decide) fun n m => mem_containers_of_save
  | saveObject => exact plain (by decide) fun n m => mem_containers_of_legacy
  | world => exact plain (by decide) fun n m => mem_containers_of_world
  | json => exact plain (by decide) fun n m => mem_containers_of_json
  | debug =>
      refine iff_of_true ?_ (.inl rfl)
      exact (Walk.write_isSome_iff (card_indentedContainers_le w)
        (fun k m enters => (descends_of_debug (node_mem_of_enters enters)).inner) _).mpr
        (not_looped_debug built.closuresOlder _)

/-- A writer that enters a value below itself ends within no depth. -/
theorem write_eq_none {writer : Writer} {env : WriterEnv} {w : World} {v : Value}
    (looped : writer.Looped env w v) (depth : Nat) : writer.write env w depth v = none := by
  apply Option.not_isSome_iff_eq_none.mp
  intro ends
  cases writer <;> exact Walk.not_looped_of_isSome ends looped

/-! ## Two heaps -/

/-- A driver with nothing on its heap. -/
def bareWorld : World :=
  ⟨[], [], [], [], [], [], [], [], [], [], [], [], [], 0, 0⟩

/-- No doubles, no objects. -/
def bareEnv : WriterEnv :=
  ⟨fun _ => [], fun _ => [], fun _ => none⟩

/-- `a = ({ 1 })`. -/
def oneArray : World :=
  (bareWorld.newArray [.int 1]).1

/-- `a = ({ 1 }); a[0] = a`. -/
def selfArray : World :=
  oneArray.setArray 0 [⟨.array (some 0), false, false⟩]

/-- The array `a`. -/
def theArray : Value :=
  ⟨.array (some 0), false, false⟩

theorem built_oneArray : Built oneArray :=
  .newArray _ (.empty rfl)

/-- `b = ({ a, a })`. -/
def sharedArray : World :=
  (oneArray.newArray [theArray, theArray]).1

/-- `save_variable(b)` ends, so it enters nothing below itself. -/
theorem sharedArray_not_looped :
    ¬ Writer.Looped .saveVariable bareEnv sharedArray ⟨.array (some 1), false, false⟩ := by
  have ends : Writer.Finishes .saveVariable bareEnv sharedArray ⟨.array (some 1), false, false⟩ := by
    unfold Writer.Finishes
    rfl
  have built : Built sharedArray := .newArray _ built_oneArray
  rcases (finishes_iff .saveVariable bareEnv _ built).mp ends with same | straight
  · cases same
  · exact straight

theorem selfArray_looped : Writer.Looped .saveVariable bareEnv selfArray theArray :=
  have enters : Walk.Enters (saveVisit selfArray) (.array (some 0)) (.array (some 0)) :=
    ⟨[.text [SaveVariable.openParen, SaveVariable.openBrace]], _, rfl, by simp, by simp⟩
  ⟨.array (some 0), .refl, .single enters⟩

/-- `save_variable(a)` with `a[0] = a` never ends. -/
theorem selfArray_not_finishes :
    ¬ ∀ (writer : Writer) (env : WriterEnv) (w : World) (v : Value),
      Built w → writer.Finishes env w v := by
  intro claimed
  have ends := claimed .saveVariable bareEnv selfArray theArray (.setArray 0 _ built_oneArray)
  have never := write_eq_none selfArray_looped (stackBound selfArray)
  unfold Writer.Finishes at ends
  rw [never] at ends
  cases ends

end Writer

end Kjdmud.Efun
