import Kjdmud.Efun.Copy

/-!
# What a write does to the heap

An element assignment, an insertion or a deletion writes on one array or mapping, and
points it to nothing but what it pointed to and what is stored.
-/

namespace Kjdmud.Efun

open Kjdmud.Vm
open Relation

/-! ## What a write does -/

section Write

variable {w : World} {v : Value}

theorem mem_tableValues {m : Mapping} : v ∈ tableValues m ↔
    (∃ entry ∈ m.entries, v = entry.1 ∨ v = entry.2) ∨ ∃ row ∈ m.extraColumns, v ∈ row := by
  simp only [tableValues, List.mem_append, List.mem_map, List.mem_flatten]
  constructor
  · rintro ((⟨entry, mem, rfl⟩ | ⟨entry, mem, rfl⟩) | row)
    · exact .inl ⟨entry, mem, .inl rfl⟩
    · exact .inl ⟨entry, mem, .inr rfl⟩
    · exact .inr row
  · rintro (⟨entry, mem, rfl | rfl⟩ | row)
    · exact .inl (.inl ⟨entry, mem, rfl⟩)
    · exact .inl (.inr ⟨entry, mem, rfl⟩)
    · exact .inr row

theorem mem_modify {α : Type} {l : List α} {i : Nat} {f : α → α} {x : α}
    (mem : x ∈ l.modify i f) : x ∈ l ∨ ∃ y ∈ l, x = f y := by
  rcases List.mem_iff_getElem.mp mem with ⟨j, inside, rfl⟩
  have inside' : j < l.length := by rwa [List.length_modify] at inside
  rw [List.getElem_modify]
  split
  · exact .inr ⟨_, List.getElem_mem inside', rfl⟩
  · exact .inl (List.getElem_mem inside')

theorem mem_setColumn {m : Mapping} {i col : Nat} {value : Value}
    (mem : v ∈ tableValues (m.setColumn i col value)) : v ∈ tableValues m ∨ v = value := by
  rw [mem_tableValues] at mem ⊢
  unfold Mapping.setColumn at mem
  split at mem
  · rcases mem with ⟨entry, mem, here⟩ | row
    · rcases mem_modify mem with old | ⟨before, old, rfl⟩
      · exact .inl (.inl ⟨entry, old, here⟩)
      · rcases here with rfl | rfl
        · exact .inl (.inl ⟨before, old, .inl rfl⟩)
        · exact .inr rfl
    · exact .inl (.inr row)
  · rcases mem with entry | ⟨row, mem, here⟩
    · exact .inl (.inl entry)
    · rcases mem_modify mem with old | ⟨before, old, rfl⟩
      · exact .inl (.inr ⟨row, old, here⟩)
      · rcases List.mem_or_eq_of_mem_set here with kept | new
        · exact .inl (.inr ⟨before, old, kept⟩)
        · exact .inr new

theorem mem_appendEntry {m : Mapping} {key : Value} {values : List Value}
    (mem : v ∈ tableValues (m.appendEntry key values)) :
    v ∈ tableValues m ∨ v = key ∨ v ∈ values ∨ place v = none := by
  rw [mem_tableValues] at mem ⊢
  unfold Mapping.appendEntry at mem
  dsimp only at mem
  rcases mem with ⟨entry, mem, here⟩ | ⟨row, mem, here⟩
  · rcases List.mem_append.mp mem with old | new
    · exact .inl (.inl ⟨entry, old, here⟩)
    · rw [List.mem_singleton] at new
      subst new
      rcases here with rfl | rfl
      · exact .inr (.inl rfl)
      · cases values with
        | nil => exact .inr (.inr (.inr rfl))
        | cons first rest => exact .inr (.inr (.inl List.mem_cons_self))
  · split at mem
    · rcases List.mem_append.mp mem with old | new
      · exact .inl (.inr ⟨row, old, here⟩)
      · rw [List.mem_singleton] at new
        subst new
        rcases List.mem_append.mp here with value | zero
        · exact .inr (.inr (.inl (List.mem_of_mem_drop (List.mem_of_mem_take value))))
        · rw [List.eq_of_mem_replicate zero]
          exact .inr (.inr (.inr rfl))
    · exact .inl (.inr ⟨row, mem, here⟩)

theorem mem_eraseAt {m : Mapping} {i : Nat} (mem : v ∈ tableValues (m.eraseAt i)) :
    v ∈ tableValues m := by
  rw [mem_tableValues] at mem ⊢
  unfold Mapping.eraseAt at mem
  dsimp only at mem
  rcases mem with ⟨entry, mem, here⟩ | ⟨row, mem, here⟩
  · exact .inl ⟨entry, List.mem_of_mem_eraseIdx mem, here⟩
  · split at mem
    · exact .inr ⟨row, mem, here⟩
    · exact .inr ⟨row, List.mem_of_mem_eraseIdx mem, here⟩

theorem mem_deleteFrom {key : Value} {rounds i : Nat} {m : Mapping}
    (mem : v ∈ tableValues (m.deleteFrom key rounds i)) : v ∈ tableValues m := by
  induction rounds generalizing i m with
  | zero => exact mem
  | succ rounds ih =>
      rw [Mapping.deleteFrom] at mem
      split at mem
      · exact mem
      · split at mem
        · exact mem_eraseAt (ih mem)
        · exact ih mem

/-! ## Writes on the heap -/

theorem content_setArray {ref : Ref} {items : List Value} {n : Place} (differs : n ≠ .array ref) :
    content (w.setArray ref items) n = content w n := by
  cases n with
  | array other =>
      have apart : ref ≠ other := fun same => differs (by rw [same])
      simp only [content, World.array, World.setArray, List.getElem?_set_ne apart]
  | mapping other => rfl

theorem content_setMapping {ref : Ref} {m : Mapping} {n : Place} (differs : n ≠ .mapping ref) :
    content (w.setMapping ref m) n = content w n := by
  cases n with
  | array other => rfl
  | mapping other =>
      have apart : ref ≠ other := fun same => differs (by rw [same])
      simp only [content, World.mapping, World.setMapping, List.getElem?_set_ne apart]

theorem array_setArray (ref : Ref) (items : List Value) :
    (w.setArray ref items).array ref = items ∨ w.setArray ref items = w := by
  by_cases inside : ref < w.arrays.length
  · left
    simp [World.array, World.setArray, inside]
  · right
    simp [World.setArray, List.set_eq_of_length_le (not_lt.mp inside)]

theorem mapping_setMapping (ref : Ref) (m : Mapping) :
    (w.setMapping ref m).mapping ref = m ∨ w.setMapping ref m = w := by
  by_cases inside : ref < w.mappings.length
  · left
    simp [World.mapping, World.setMapping, inside]
  · right
    simp [World.setMapping, List.set_eq_of_length_le (not_lt.mp inside)]

/-- The places that a write may bring in. -/
def Write.brings (write : Write) (k : Place) : Prop :=
  ∃ v ∈ write.stored, place v = some k

/-- What an assignment does. -/
theorem indexAssign_cases {target index value : Value} {column : Option Value} {w' : World}
    (done : indexAssign target index value column w = .ok w') :
    (∃ ref i, target.data = .array (some ref) ∧ i < (w.array ref).length ∧
      w' = w.setArray ref ((w.array ref).set i value)) ∨
    ∃ ref m, target.data = .mapping (some ref) ∧ w' = w.setMapping ref m ∧
      ∀ v ∈ tableValues m,
        v ∈ tableValues (w.mapping ref) ∨ v = index ∨ v = value ∨ place v = none := by
  unfold indexAssign at done
  split at done
  · cases done
  · next ref data =>
      left
      unfold assignArray at done
      split at done
      · next i _ =>
          dsimp only at done
          split at done
          · cases done
          · next inside =>
              cases done
              exact ⟨ref, i.toInt.toNat, data, by omega, rfl⟩
      · cases done
  · cases done
  · next ref data =>
      right
      unfold assignMapping at done
      dsimp only at done
      cases col : mappingColumn (w.mapping ref) column with
      | error e =>
          rw [col] at done
          cases done
      | ok c =>
          rw [col] at done
          simp only [bind, Except.bind] at done
          split at done
          · cases done
            refine ⟨ref, _, data, rfl, fun v mem => ?_⟩
            exact (mem_setColumn mem).imp_right fun new => .inr (.inl new)
          · cases done
            refine ⟨ref, _, data, rfl, fun v mem => ?_⟩
            rcases mem_appendEntry mem with old | key | stored | none_
            · exact .inl old
            · exact .inr (.inl key)
            · rcases List.mem_or_eq_of_mem_set stored with zero | new
              · rw [List.eq_of_mem_replicate zero]
                exact .inr (.inr (.inr rfl))
              · exact .inr (.inr (.inl new))
            · exact .inr (.inr (.inr none_))
  · cases done

theorem place_array {v : Value} {ref : Ref} (data : v.data = .array (some ref)) :
    place v = some (.array ref) := by
  rw [place, data]

theorem place_mapping {v : Value} {ref : Ref} (data : v.data = .mapping (some ref)) :
    place v = some (.mapping ref) := by
  rw [place, data]

theorem written_setArray {ref : Ref} {items : List Value} {new : Place → Prop}
    (stored : ∀ v ∈ items, v ∈ w.array ref ∨ ∀ k, place v = some k → new k) :
    heap.Written w (w.setArray ref items) (.array ref) new where
  frame := fun _ differs => content_setArray differs
  points := by
    rintro k ⟨v, mem, here⟩
    have values : v ∈ (w.setArray ref items).array ref := mem
    rcases array_setArray (w := w) ref items with set | same
    · rw [set] at values
      rcases stored v values with old | fresh
      · exact .inl ⟨v, old, here⟩
      · exact .inr (fresh k here)
    · rw [same] at values
      exact .inl ⟨v, values, here⟩

theorem written_setMapping {ref : Ref} {m : Mapping} {new : Place → Prop}
    (stored : ∀ v ∈ tableValues m,
      v ∈ tableValues (w.mapping ref) ∨ ∀ k, place v = some k → new k) :
    heap.Written w (w.setMapping ref m) (.mapping ref) new where
  frame := fun _ differs => content_setMapping differs
  points := by
    rintro k ⟨v, mem, here⟩
    have values : v ∈ tableValues ((w.setMapping ref m).mapping ref) := mem
    rcases mapping_setMapping (w := w) ref m with set | same
    · rw [set] at values
      rcases stored v values with old | fresh
      · exact .inl ⟨v, old, here⟩
      · exact .inr (fresh k here)
    · rw [same] at values
      exact .inl ⟨v, values, here⟩

/-- A write changes nothing, or it writes on its target. -/
theorem Write.written (write : Write) (w : World) :
    write.apply w = w ∨ ∃ n, place write.target = some n ∧
      heap.Written w (write.apply w) n write.brings := by
  cases write with
  | assign target index value column =>
      cases done : indexAssign target index value column w with
      | error e =>
          left
          rw [Write.apply, done]
      | ok w' =>
          right
          have applied : (Write.assign target index value column).apply w = w' := by
            rw [Write.apply, done]
          rw [applied]
          rcases indexAssign_cases done with ⟨ref, i, data, -, rfl⟩ | ⟨ref, m, data, rfl, stored⟩
          · refine ⟨_, place_array data, written_setArray fun v mem => ?_⟩
            rcases List.mem_or_eq_of_mem_set mem with old | rfl
            · exact .inl old
            · exact .inr fun k here => ⟨v, by simp [Write.stored], here⟩
          · refine ⟨_, place_mapping data, written_setMapping fun v mem => ?_⟩
            rcases stored v mem with old | rfl | rfl | nowhere
            · exact .inl old
            · exact .inr fun k here => ⟨v, by simp [Write.stored], here⟩
            · exact .inr fun k here => ⟨v, by simp [Write.stored], here⟩
            · right
              intro k here
              rw [nowhere] at here
              cases here
  | delete target key =>
      by_cases mapping : ∃ ref, target.data = .mapping (some ref)
      · rcases mapping with ⟨ref, data⟩
        right
        have applied : (Write.delete target key).apply w =
            w.setMapping ref ((w.mapping ref).delete key) := by
          rw [Write.apply, data]
        rw [applied]
        exact ⟨_, place_mapping data, written_setMapping fun v mem => .inl (mem_deleteFrom mem)⟩
      · left
        rw [Write.apply]
        split
        · next ref data => exact absurd ⟨ref, data⟩ mapping
        · rfl

/-- An empty array stays empty. -/
theorem Write.apply_empty (write : Write) {ref : Ref} (empty : w.array ref = []) :
    (write.apply w).array ref = [] := by
  cases write with
  | assign target index value column =>
      cases done : indexAssign target index value column w with
      | error e =>
          rw [Write.apply, done]
          exact empty
      | ok w' =>
          have applied : (Write.assign target index value column).apply w = w' := by
            rw [Write.apply, done]
          rw [applied]
          rcases indexAssign_cases done with ⟨other, i, -, inside, rfl⟩ | ⟨_, _, _, rfl, _⟩
          · have differs : Place.array ref ≠ .array other := by
              rintro ⟨⟩
              rw [empty] at inside
              cases inside
            have kept : content (w.setArray other ((w.array other).set i value)) (.array ref) =
                content w (.array ref) := content_setArray differs
            exact (Content.items.inj kept).trans empty
          · exact empty
  | delete target key =>
      rw [Write.apply]
      split <;> exact empty

end Write

end Kjdmud.Efun
