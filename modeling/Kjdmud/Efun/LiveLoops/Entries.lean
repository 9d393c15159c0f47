import Kjdmud.Efun.LiveLoops

/-!
# An entry while its mapping changes

What an assignment, a deletion and a sweep leave of an entry that they are not about.
-/

namespace Kjdmud.Efun.LiveLoops

open Vm

variable {m : Mapping} {rows : List (Value × List Value)} {gone : ObjectId → Bool}
  {entry : Value × Value} {i : Nat}

theorem entries_of_holds (holds : m.Holds rows) :
    m.entries = rows.map fun row => (row.1, row.2.headD Value.void) := by
  rw [congrArg Mapping.entries holds.built]
  rfl

/-! ## Sweeps -/

/-- What a sweep leaves of a table. -/
def reclaimRows (gone : ObjectId → Bool) (rows : List (Value × List Value)) :
    List (Value × List Value) :=
  (rows.filter fun row => !goneValue gone row.1).map fun row =>
    (row.1, row.2.map (reclaimValue gone))

theorem reclaimValue_of_not_gone {v : Value} (stays : goneValue gone v = false) :
    reclaimValue gone v = v := by
  rw [reclaimValue, stays]
  rfl

theorem goneValue_void : goneValue gone Value.void = false :=
  rfl

theorem headD_map_reclaimValue (values : List Value) :
    (values.map (reclaimValue gone)).headD Value.void =
      reclaimValue gone (values.headD Value.void) := by
  cases values with
  | nil => exact (reclaimValue_of_not_gone goneValue_void).symm
  | cons => rfl

theorem modify_append (done : List (Value × List Value)) (row : Value × List Value)
    (rest : List (Value × List Value)) (change : Value × List Value → Value × List Value) :
    (done ++ row :: rest).modify done.length change = done ++ change row :: rest := by
  induction done with
  | nil => rfl
  | cons first done ih =>
      rw [List.cons_append, List.length_cons, List.modify_succ_cons, ih, List.cons_append]

/-- One entry is swept in place. -/
theorem holds_sweepEntry (gone : ObjectId → Bool) (holds : m.Holds rows) (i : Nat) :
    Mapping.Holds
      { m with
        entries := m.entries.modify i fun e => (e.1, reclaimValue gone e.2)
        extraColumns := m.extraColumns.modify i fun row => row.map (reclaimValue gone) }
      (rows.modify i fun row => (row.1, row.2.map (reclaimValue gone))) := by
  convert holds.modify i (fun row => row.map (reclaimValue gone))
    (fun _ full => (List.length_map _).trans full) using 1
  have firsts : (rows.modify i fun row => (row.1, row.2.map (reclaimValue gone))).map
      (fun row => (row.1, row.2.headD Value.void)) =
        (rows.map fun row => (row.1, row.2.headD Value.void)).modify i
          fun e => (e.1, reclaimValue gone e.2) :=
    Table.map_modify (fun row : Value × List Value => (row.1, row.2.headD Value.void)) _ _
      (fun row _ => congrArg (Prod.mk row.1) (headD_map_reclaimValue row.2)) i
  have others : (rows.modify i fun row => (row.1, row.2.map (reclaimValue gone))).map
      (fun row => row.2.tail) =
        (rows.map fun row => row.2.tail).modify i fun row => row.map (reclaimValue gone) := by
    refine Table.map_modify (fun row : Value × List Value => row.2.tail) _ _ (fun row _ => ?_) i
    exact List.map_tail.symm
  rw [Mapping.ofRows, firsts, others]
  rw [holds.built]
  by_cases wide : m.width > 1
  · simp only [Mapping.ofRows, if_pos wide]
  · simp only [Mapping.ofRows, if_neg wide, List.modify_nil]

theorem holds_reclaimFrom {done rest : List (Value × List Value)} {rounds : Nat}
    (holds : m.Holds (done ++ rest)) (enough : rest.length ≤ rounds) :
    (reclaimFrom gone rounds done.length m).Holds (done ++ reclaimRows gone rest) := by
  induction rounds generalizing m done rest with
  | zero =>
      cases rest with
      | nil => exact holds
      | cons row rest => cases enough
  | succ rounds ih =>
      cases rest with
      | nil =>
          have ended : m.entries[done.length]? = none :=
            List.getElem?_eq_none (by rw [holds.length, List.append_nil])
          simp only [reclaimFrom, ended]
          exact holds
      | cons row rest =>
          have less : rest.length ≤ rounds := Nat.le_of_succ_le_succ enough
          have here : m.entries[done.length]? = some (row.1, row.2.headD Value.void) := by
            rw [entries_of_holds holds, List.getElem?_map,
              List.getElem?_append_right (Nat.le_refl _), Nat.sub_self]
            rfl
          simp only [reclaimFrom, here, reclaimRows, List.filter_cons]
          cases destructed : goneValue gone row.1 with
          | true =>
              have erased := holds.eraseAt done.length
              rw [List.eraseIdx_append_of_length_le (Nat.le_refl _), Nat.sub_self,
                List.eraseIdx_cons_zero] at erased
              exact ih erased less
          | false =>
              have swept := holds_sweepEntry gone holds done.length
              rw [modify_append, List.append_cons] at swept
              have passed := ih swept less
              rw [List.length_append, List.length_singleton, List.append_assoc] at passed
              exact passed

/-- A sweep takes out the rows whose key is destructed, and puts zeros for values. -/
theorem holds_reclaim (holds : m.Holds rows) :
    (reclaim gone m).Holds (reclaimRows gone rows) := by
  have fromStart : m.Holds ([] ++ rows) := holds
  exact holds_reclaimFrom fromStart (Nat.le_of_eq holds.length.symm)

/-! ## One entry -/

/-- A filter that takes nothing up to a position leaves the element there. -/
theorem getElem?_filter_of_take {α : Type} {l : List α} {p : α → Bool}
    (kept : ∀ a ∈ l.take (i + 1), p a = true) : (l.filter p)[i]? = l[i]? := by
  have first : (l.take (i + 1)).filter p = l.take (i + 1) := List.filter_eq_self.mpr kept
  have parts : l.filter p = l.take (i + 1) ++ (l.drop (i + 1)).filter p := by
    conv_lhs => rw [← List.take_append_drop (i + 1) l, List.filter_append, first]
  by_cases inside : i < l.length
  · have shorter : i < (l.take (i + 1)).length := by
      rw [List.length_take]
      exact Nat.lt_min.mpr ⟨Nat.lt_succ_self i, inside⟩
    rw [parts, List.getElem?_append_left shorter, List.getElem?_take_of_lt (Nat.lt_succ_self i)]
  · have beyond := Nat.le_of_not_lt inside
    rw [List.getElem?_eq_none beyond,
      List.getElem?_eq_none (Nat.le_trans (List.length_filter_le p l) beyond)]

theorem entry_assign {key value : Value} {col : Nat}
    (spared : ∀ j, m.find key = some j → j = i → col ≠ 0)
    (here : m.entries[i]? = some entry) :
    (m.assign key value col).entries[i]? = some entry := by
  unfold Mapping.assign
  cases found : m.find key with
  | some j =>
      by_cases first : col = 0
      · have other : j ≠ i := fun same => spared j found same first
        simp only [Mapping.setColumn, if_pos first]
        rw [List.getElem?_modify_ne _ _ other, here]
      · simp only [Mapping.setColumn, if_neg first]
        exact here
  | none =>
      obtain ⟨inside, _⟩ := List.getElem?_eq_some_iff.mp here
      simp only [Mapping.appendEntry]
      rw [List.getElem?_append_left inside, here]

theorem length_assign {key value : Value} {col capacity : Nat}
    (fits : m.entries.length ≤ capacity)
    (room : m.find key = none → m.entries.length < capacity) :
    (m.assign key value col).entries.length ≤ capacity := by
  unfold Mapping.assign
  cases found : m.find key with
  | some j =>
      by_cases first : col = 0
      · simp only [Mapping.setColumn, if_pos first, List.length_modify]
        exact fits
      · simp only [Mapping.setColumn, if_neg first]
        exact fits
  | none =>
      simp only [Mapping.appendEntry, List.length_append, List.length_singleton]
      exact room found

theorem entries_delete (holds : m.Holds rows) (key : Value) :
    (m.delete key).entries = m.entries.filter fun entry => !valuesEqual entry.1 key := by
  rw [entries_of_holds (holds.delete key), entries_of_holds holds, List.filter_map]
  rfl

theorem entries_reclaim (holds : m.Holds rows) :
    (reclaim gone m).entries = (m.entries.filter fun entry => !goneValue gone entry.1).map
      fun entry => (entry.1, reclaimValue gone entry.2) := by
  rw [entries_of_holds (holds_reclaim holds), entries_of_holds holds, List.filter_map,
    reclaimRows, List.map_map, List.map_map]
  refine List.map_congr_left fun row _ => ?_
  exact congrArg (Prod.mk row.1) (headD_map_reclaimValue row.2)

theorem entry_delete (holds : m.Holds rows) {key : Value}
    (spared : ∀ e ∈ m.entries.take (i + 1), valuesEqual e.1 key = false)
    (here : m.entries[i]? = some entry) : (m.delete key).entries[i]? = some entry := by
  rw [entries_delete holds, getElem?_filter_of_take, here]
  intro e mem
  rw [spared e mem]
  rfl

theorem entry_reclaim (holds : m.Holds rows)
    (spared : ∀ e ∈ m.entries.take (i + 1), goneValue gone e.1 = false)
    (stays : goneValue gone entry.2 = false) (here : m.entries[i]? = some entry) :
    (reclaim gone m).entries[i]? = some entry := by
  rw [entries_reclaim holds, List.getElem?_map, getElem?_filter_of_take, here]
  · rw [Option.map_some, reclaimValue_of_not_gone stays]
  · intro e mem
    rw [spared e mem]
    rfl

theorem length_delete (holds : m.Holds rows) (key : Value) :
    (m.delete key).entries.length ≤ m.entries.length := by
  rw [entries_delete holds]
  exact List.length_filter_le _ _

theorem length_reclaim (holds : m.Holds rows) :
    (reclaim gone m).entries.length ≤ m.entries.length := by
  rw [entries_reclaim holds, List.length_map]
  exact List.length_filter_le _ _

end Kjdmud.Efun.LiveLoops
