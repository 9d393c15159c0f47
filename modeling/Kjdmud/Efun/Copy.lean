import Kjdmud.Lib.Heaps
import Kjdmud.Vm.Mappings

/-!
# The efun `copy`

`copy` of `src/efun/EfunTable.cpp` makes a new array, mapping or buffer with the contents
of the old one.  What the contents refer to is shared, so a write through the copy shows
in the original wherever there is anything to write on below the top.
-/

namespace Kjdmud.Efun

open Kjdmud.Vm
open Relation

/-! ## The efun -/

/-- The efun `copy`. -/
def copy (w : World) (a : Value) : World × Value :=
  match a.data with
  | .array ref =>
      let (w, data) := w.newArray (w.items ref)
      (w, ⟨data, false, false⟩)
  | .mapping ref =>
      let (w, data) := w.newMapping ((ref.map w.mapping).getD ⟨[], 1, []⟩)
      (w, ⟨data, false, false⟩)
  | .buffer ref =>
      let bytes := (ref.bind (w.buffers[·]?)).getD []
      ({ w with buffers := w.buffers ++ [bytes] },
        ⟨.buffer (some w.buffers.length), false, false⟩)
  | _ => (w, a)

/-! ## Arrays and mappings as places of a heap -/

/-- An array or a mapping. -/
inductive Place
  | array (ref : Ref)
  | mapping (ref : Ref)

/-- What stands there. -/
inductive Content
  | items (values : List Value)
  | table (m : Mapping)

/-- The array or mapping that a value points to. -/
def place (v : Value) : Option Place :=
  match v.data with
  | .array (some ref) => some (.array ref)
  | .mapping (some ref) => some (.mapping ref)
  | _ => none

/-- The values of a mapping: keys, values and the other columns. -/
def tableValues (m : Mapping) : List Value :=
  m.entries.map Prod.fst ++ m.entries.map Prod.snd ++ m.extraColumns.flatten

def Content.values : Content → List Value
  | .items values => values
  | .table m => tableValues m

def content (w : World) : Place → Content
  | .array ref => .items (w.array ref)
  | .mapping ref => .table (w.mapping ref)

/-- The heap of arrays and mappings. -/
def heap : Heaps.Reading World Place Content where
  content := content
  points := fun c k => ∃ v ∈ c.values, place v = some k

/-- The root that a value is. -/
def rootOf (v : Value) (n : Place) : Prop :=
  place v = some n

/-- What a value reaches through arrays and mappings. -/
def Reaches (w : World) (v : Value) (n : Place) : Prop :=
  heap.Reach w (rootOf v) n

/-- A shared pointer points to something. -/
def Allocated (w : World) : Place → Prop
  | .array ref => ref < w.arrays.length
  | .mapping ref => ref < w.mappings.length

/-- Every shared pointer points to something. -/
def WellFormed (w : World) : Prop :=
  ∀ n k, heap.Edge w n k → Allocated w k

/-! ## Later writes -/

/-- An element assignment or key insertion, and a deletion. -/
inductive Write
  | assign (target index value : Value) (column : Option Value)
  /-- `map_delete`. -/
  | delete (target key : Value)

/-- Do a write; where it throws it changes nothing. -/
def Write.apply (w : World) : Write → World
  | .assign target index value column =>
      match indexAssign target index value column w with
      | .ok w' => w'
      | .error _ => w
  | .delete target key =>
      match target.data with
      | .mapping (some ref) => w.setMapping ref ((w.mapping ref).delete key)
      | _ => w

def Write.target : Write → Value
  | .assign target _ _ _ => target
  | .delete target _ => target

/-- The values that a write may store. -/
def Write.stored : Write → List Value
  | .assign _ index value _ => [index, value]
  | .delete _ _ => []

/-- Writes through a root or anything reachable from it.  What is stored leads nowhere the
other value led at first, unless the root leads there. -/
inductive Through (root : Value) (avoid : Place → Prop) (w : World) : World → Prop
  | nil : Through root avoid w w
  | snoc {w' : World} (before : Through root avoid w w') (write : Write)
      (inside : ∀ n, place write.target = some n → Reaches w' root n)
      (foreign : ∀ v ∈ write.stored, ∀ n, Reaches w' v n → Reaches w' root n ∨ ¬ avoid n) :
      Through root avoid w (write.apply w')

/-- Everything that a value reached stays as it was. -/
def Unchanged (w w' : World) (v : Value) : Prop :=
  ∀ n, Reaches w v n → content w' n = content w n

/-- Whatever is written through `root` leaves what `other` reaches as it is. -/
def Independent (w : World) (root other : Value) : Prop :=
  ∀ w', Through root (Reaches w other) w w' → Unchanged w w' other

/-! ## Structural equality -/

/-- Two values look the same, if what they are made of is related. -/
def Alike (w : World) (related : Value → Value → Prop) (x y : Value) : Prop :=
  match x.data, y.data with
  | .array r, .array r' =>
      x.isClassInstance = y.isClassInstance ∧
        List.Forall₂ related (w.items r) (w.items r')
  | .mapping r, .mapping r' =>
      let m := (r.map w.mapping).getD ⟨[], 1, []⟩
      let m' := (r'.map w.mapping).getD ⟨[], 1, []⟩
      m.width = m'.width ∧
        List.Forall₂ related (m.entries.map Prod.fst) (m'.entries.map Prod.fst) ∧
        List.Forall₂ related (m.entries.map Prod.snd) (m'.entries.map Prod.snd) ∧
        List.Forall₂ (List.Forall₂ related) m.extraColumns m'.extraColumns
  | .buffer r, .buffer r' =>
      (r.bind (w.buffers[·]?)).getD [] = (r'.bind (w.buffers[·]?)).getD []
  | _, _ => x = y

/-- Structural equality, of values that may contain themselves. -/
def Similar (w : World) (x y : Value) : Prop :=
  ∃ related : Value → Value → Prop, related x y ∧
    ∀ u v, related u v → Alike w related u v

/-- `copy` breaks all aliasing. -/
structure BreaksAliasing (w : World) (a : Value) : Prop where
  similar : Similar (copy w a).1 a (copy w a).2
  original : Independent (copy w a).1 (copy w a).2 a
  copied : Independent (copy w a).1 a (copy w a).2

/-- There is nothing to write on below the top of a value, and it is no class instance. -/
def Shallow (w : World) (a : Value) : Prop :=
  (∀ ref, a.data = .array ref → a.isClassInstance = false) ∧
    ∀ top n, place a = some top → TransGen (heap.Edge w) top n →
      ∃ ref, n = .array ref ∧ w.array ref = []

end Kjdmud.Efun
