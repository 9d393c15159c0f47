import Kjdmud.Persist.StateSerializer.Verdicts

/-!
# How the sections of a dump are read

The placement section is read to its end, refused, or sends the position back; the value
section is a row of records, each with the id of an object, a count and as many values.
-/

namespace Kjdmud.Persist

open Fuel Decoded Tagged
open SaveVariable (colon semicolon)
open Conversion (stoll stoull)
open Efun (RestoreError maxValues)

/-! ## The placement section -/

section Placement

variable {s : Str} {c : Cursor} (sound : c.Sound 0)

include sound

theorem agrees_readInventory : Agrees anyError 0 c (readInventory s c) (checkInventory s c.pos) := by
  refine (agrees_readPresent sound _ stoll semicolon).andThen (fun invCount c' sound' _ => ?_)
    fun invCount c' => ?_
  · unfold checkPresent
    cases found : findFrom s semicolon c'.pos with
    | none => exact .throw rfl sound'
    | some listEnd =>
        have onward : c'.pos ≤ listEnd + 1 := (findFrom_bounds found).1.trans (Nat.le_succ _)
        simp only
        cases inventoryIds (castSize invCount) (upTo s c'.pos (some listEnd)) with
        | error e => exact .refuses _ _ rfl rfl (sound'.moveTo onward)
        | ok ids => exact .move ids sound' onward
  · cases findFrom s semicolon c'.pos with
    | none => exact keeps_some (.refl c')
    | some listEnd => exact (keeps_convert _ _).of_leads (.moveTo c' _)

theorem agrees_readFilename : Agrees anyError 0 c (readFilename s c) (checkFilename s c.pos) :=
  (agrees_readPresent sound _ stoull colon).andThen
    (fun fnameLen _ sound' _ => agrees_skip sound' _ fnameLen)
    fun _ c' => keeps_some (.moveTo c' _)

theorem agrees_readPlacement : Agrees anyError 0 c (readPlacement s c) (checkPlacement s c.pos) := by
  have keepsName (make : Str → PlacementEntry) (c : Cursor) :
      Keeps c ((readFilename s c).andThen fun filename c' => some (.ok (make filename), c')) :=
    (keeps_readFilename s c).andThen fun _ c' => keeps_some (.refl c')
  have keepsInventory (make : List Int64 → Str → PlacementEntry) (c : Cursor) :
      Keeps c ((readInventory s c).andThen fun invIds c' =>
        (readFilename s c').andThen fun filename c'' => some (.ok (make invIds filename), c'')) :=
    (keeps_readInventory s c).andThen fun invIds => keepsName (make invIds)
  have keepsEnv (make : Int64 → List Int64 → Str → PlacementEntry) (c : Cursor) :
      Keeps c ((readIntField semicolon s c).andThen fun envId c' =>
        (readInventory s c').andThen fun invIds c'' =>
          (readFilename s c'').andThen fun filename c₃ =>
            some (.ok (make envId invIds filename), c₃)) :=
    (keeps_readPresent s c _ stoll semicolon).andThen fun envId => keepsInventory (make envId)
  have int {c : Cursor} (sound : c.Sound 0) := agrees_readPresent (s := s) sound
    (str "restore_state: corrupt statedump data (truncated field)") stoll semicolon
  refine (int sound).andThen (fun id c₁ sound₁ _ => ?_) fun id c₁ =>
    (keeps_readPresent s c₁ _ stoll semicolon).andThen fun isClone =>
      keepsEnv (.mk id (isClone != 0))
  refine (int sound₁).andThen (fun isClone c₂ sound₂ _ => ?_) fun isClone =>
    keepsEnv (.mk id (isClone != 0))
  refine (int sound₂).andThen (fun envId c₃ sound₃ _ => ?_) fun envId =>
    keepsInventory (.mk id (isClone != 0) envId)
  refine (agrees_readInventory sound₃).andThen (fun invIds c₄ sound₄ _ => ?_) fun invIds =>
    keepsName (.mk id (isClone != 0) envId invIds)
  exact (agrees_readFilename sound₄).map _

theorem agrees_readPlacements :
    Agrees anyError 0 c (readPlacements s c) (checkPlacements s c.pos) := by
  refine (agrees_readPresent sound _ stoll semicolon).andThen (fun count c' sound' _ => ?_)
    fun count c' => ?_
  · unfold atMost
    split
    · exact .throw rfl sound'
    · exact .repeated (fun c'' sound'' _ => agrees_readPlacement sound'')
        (keeps_readPlacement s) sound' (castSize count) []
  · split
    · exact keeps_some (.refl c')
    · exact keeps_repeatRead (keeps_readPlacement s) (castSize count) [] c'

end Placement

/-! ## Records -/

/-- The id and the count at the front of a record. -/
def readRecordHead (s : Str) (c : Cursor) : Decoded RestoreError (Int64 × Nat) :=
  (readIntField semicolon s c).andThen fun id c =>
    (readIntField semicolon s c).andThen fun varCount c =>
      if maxValues < castSize varCount then some (.error .lengthError, c)
      else some (.ok (id, castSize varCount), c)

theorem readVariables_eq (objects : ObjectOfId) (fuel : Nat) (s : Str) (c : Cursor) :
    readVariables objects fuel s c = (readRecordHead s c).andThen fun head c =>
      (repeatRead (deserializeWorldValue objects s fuel) head.2 [] c).andThen
        fun restoredVars c => some (.ok (head.1, restoredVars), c) := by
  unfold readVariables readRecordHead
  simp only [andThen_assoc]
  congr 1
  funext id c
  congr 1
  funext varCount c
  split <;> rfl

/-- `readRecordHead`. -/
def checkRecordHead (s : Str) (pos : Nat) : Checked (Int64 × Nat) :=
  (checkPresent stoll semicolon s pos).andThen fun id pos =>
    (checkPresent stoll semicolon s pos).andThen fun varCount pos =>
      atMost maxValues (castSize varCount) (id, castSize varCount) pos

/-- The fate of one record. -/
def recordFate (s : Str) (pos : Nat) : Fate :=
  match checkRecordHead s pos with
  | .refuses => .refuses
  | .breaks => .breaks
  | .goesOn head pos => (worldFormat s).fate head.2 pos 0

/-- The fate of some records. -/
def recordsFate (s : Str) : Nat → Nat → Fate
  | 0, pos => .goesOn pos 0
  | count + 1, pos =>
      match recordFate s pos with
      | .refuses => .refuses
      | .breaks => .breaks
      | .goesOn pos _ => recordsFate s count pos

/-- How the reader of a record ends, by the fate of the record. -/
inductive RecordEnds (objects : ObjectOfId) (s : Str) (c : Cursor) : Fate → Prop
  | goesOn (record : Int64 × List WorldValue) (c' : Cursor)
      (settles : Settles (s.length + 1) (fun fuel => readVariables objects fuel s c)
        (.ok record, c'))
      (sound : c'.Sound 0) (onward : c.pos ≤ c'.pos) (reserved : Nat) :
      RecordEnds objects s c (.goesOn c'.pos reserved)
  | refuses (e : RestoreError) (c' : Cursor)
      (settles : Settles (s.length + 1) (fun fuel => readVariables objects fuel s c)
        (.error e, c'))
      (sound : c'.Sound 0) : RecordEnds objects s c .refuses
  | breaks (bad : Breaks anyError 0 fun fuel => readVariables objects fuel s c) :
      RecordEnds objects s c .breaks

section Records

variable {objects : ObjectOfId} {s : Str} {c : Cursor}

theorem keeps_variables (fuel : Nat) (head : Int64 × Nat) (c : Cursor) :
    Keeps c ((repeatRead (deserializeWorldValue objects s fuel) head.2 [] c).andThen
      fun restoredVars c' => some (.ok (head.1, restoredVars), c')) :=
  (keeps_repeatRead (fun c' => keeps_deserializeWorldValue s c' objects fuel) head.2 [] c).andThen
    fun _ c' => keeps_some (.refl c')

theorem keeps_readRecordHead (s : Str) (c : Cursor) : Keeps c (readRecordHead s c) := by
  refine (keeps_readPresent s c _ stoll semicolon).andThen fun id c' => ?_
  refine (keeps_readPresent s c' _ stoll semicolon).andThen fun varCount c'' => ?_
  exact keeps_atMost c'' maxValues (castSize varCount) (id, castSize varCount)

theorem keeps_readVariables (fuel : Nat) (c : Cursor) : Keeps c (readVariables objects fuel s c) := by
  rw [readVariables_eq]
  exact (keeps_readRecordHead s c).andThen (keeps_variables fuel)

theorem agrees_readRecordHead (sound : c.Sound 0) :
    Agrees anyError 0 c (readRecordHead s c) (checkRecordHead s c.pos) := by
  refine (agrees_readPresent sound _ stoll semicolon).andThen (fun id c₁ sound₁ _ => ?_)
    fun id c₁ => (keeps_readPresent s c₁ _ stoll semicolon).andThen fun varCount c₂ =>
      keeps_atMost c₂ maxValues (castSize varCount) (id, castSize varCount)
  exact (agrees_readPresent sound₁ _ stoll semicolon).andThen
    (fun varCount _ sound₂ _ => agrees_atMost sound₂ maxValues (castSize varCount) _)
    fun varCount c₂ => keeps_atMost c₂ maxValues (castSize varCount) (id, castSize varCount)

theorem reserved_eq_zero (sound : c.Sound 0) : c.reserved = 0 :=
  Nat.le_zero.1 sound.modest

theorem record_ends (objects : ObjectOfId) (sound : c.Sound 0) (start : 0 < c.pos) :
    RecordEnds objects s c (recordFate s c.pos) := by
  have same : (fun fuel => readVariables objects fuel s c) = fun fuel =>
      (readRecordHead s c).andThen fun head c =>
        (repeatRead (deserializeWorldValue objects s fuel) head.2 [] c).andThen
          fun restoredVars c' => some (.ok (head.1, restoredVars), c') :=
    funext fun fuel => readVariables_eq objects fuel s c
  unfold recordFate
  have agrees := agrees_readRecordHead (s := s) sound
  generalize checkRecordHead s c.pos = checked at agrees
  cases agrees with
  | refuses e c' ended good sound' =>
      refine .refuses e c' ?_ sound'
      simp only [same, ended, andThen_error]
      exact .const _ _
  | breaks bad =>
      refine .breaks ?_
      rw [same]
      exact Breaks.andThen (fun _ => bad) fun fuel head c' => keeps_variables fuel head c'
  | goesOn head c₁ ended sound₁ onward _ =>
      have start₁ : 0 < c₁.pos := start.trans_le onward
      have one (c' : Cursor) (sound' : c'.Sound 0) (_ : 0 < c'.pos) :
          ValueVerdict objects s (s.length + 1) c' :=
        (value_verdict objects (s.length - c'.pos) c' (Nat.le_refl _) sound').mono (by omega)
      have values := (items_verdict one head.2 sound₁ start₁).map fun vars => (head.1, vars)
      simp only [ended, andThen_ok] at same
      rw [← same] at values
      cases values with
      | returns record c' settles sound' onward' agree =>
          have fate := (agree 0).trans (fate_zero _ _)
          rw [reserved_eq_zero sound₁, Nat.add_zero] at fate
          simp only [fate]
          exact .goesOn record c' settles sound' (onward.trans onward') _
      | refuses e c' settles good sound' agree =>
          have fate := agree 0
          rw [reserved_eq_zero sound₁, Nat.add_zero] at fate
          simp only [fate]
          exact .refuses e c' settles sound'
      | breaks bad agree =>
          have fate := agree 0
          rw [reserved_eq_zero sound₁, Nat.add_zero] at fate
          simp only [fate]
          exact .breaks bad

end Records

/-! ## The value section -/

/-- The records in front of one that is refused, with as much fuel as they can need. -/
def recordsRead (objects : ObjectOfId) (s : Str) : Nat → Nat → List (Int64 × List WorldValue)
  | 0, _ => []
  | count + 1, pos =>
      match readVariables objects (s.length + 1) s ⟨pos, 0, false⟩ with
      | some (.ok record, c) => record :: recordsRead objects s count c.pos
      | _ => []

/-- How the second pass ends, by the fate of the value section. -/
inductive SectionEnds (objects : ObjectOfId) (s : Str) (count : Nat) (state : State) (c : Cursor) :
    Fate → Prop
  | goesOn (state' : State) (c' : Cursor)
      (settles : Settles (s.length + 1)
        (fun fuel => restoreVariables objects fuel s count state c) (.ok (), state', c'))
      (sound : c'.Sound 0) (pos reserved : Nat) :
      SectionEnds objects s count state c (.goesOn pos reserved)
  | refuses (e : RestoreError) (c' : Cursor)
      (settles : Settles (s.length + 1)
        (fun fuel => restoreVariables objects fuel s count state c)
        (.error e, (recordsRead objects s count c.pos).foldl (assign objects) state, c'))
      (sound : c'.Sound 0) : SectionEnds objects s count state c .refuses
  | breaks (bad : ∀ fuel r state' c',
      restoreVariables objects fuel s count state c = some (r, state', c') → ¬ c'.Sound 0) :
      SectionEnds objects s count state c .breaks

section Section

variable {objects : ObjectOfId} {s : Str} {state : State} {c : Cursor}

/-- A sound cursor is nothing but its position. -/
theorem sound_eq (sound : c.Sound 0) : c = ⟨c.pos, 0, false⟩ := by
  obtain ⟨pos, reserved, backwards⟩ := c
  have none := reserved_eq_zero sound
  have forward := sound.forward
  simp only at none forward
  rw [none, forward]

/-- The second pass keeps what its cursor has written down. -/
theorem leads_restoreVariables {fuel count : Nat} {r : Except RestoreError Unit} {state' : State}
    {c' : Cursor}
    (ended : restoreVariables objects fuel s count state c = some (r, state', c')) :
    c.Leads c' := by
  induction count generalizing state c with
  | zero =>
      cases ended
      exact .refl _
  | succ count inductionHypothesis =>
      rw [restoreVariables] at ended
      split at ended
      · cases ended
      · rename_i e c₁ read
        cases ended
        exact keeps_readVariables fuel c _ _ read
      · rename_i record c₁ read
        exact (keeps_readVariables fuel c _ _ read).trans (inductionHypothesis ended)

/-- What follows a record. -/
def afterRecord (objects : ObjectOfId) (s : Str) (count : Nat) (state : State) (fuel : Nat) :
    Except RestoreError (Int64 × List WorldValue) × Cursor →
      Option (Except RestoreError Unit × State × Cursor)
  | (.error e, c) => some (.error e, state, c)
  | (.ok record, c) => restoreVariables objects fuel s count (assign objects state record) c

theorem restoreVariables_succ (count fuel : Nat) :
    restoreVariables objects fuel s (count + 1) state c =
      (readVariables objects fuel s c).bind (afterRecord objects s count state fuel) := by
  rw [restoreVariables]
  cases readVariables objects fuel s c with
  | none => rfl
  | some outcome =>
      obtain ⟨result, c'⟩ := outcome
      cases result <;> rfl

theorem section_ends (objects : ObjectOfId) (count : Nat) (state : State) (sound : c.Sound 0)
    (start : 0 < c.pos) : SectionEnds objects s count state c (recordsFate s count c.pos) := by
  induction count generalizing state c with
  | zero => exact .goesOn state c (.const _ _) sound _ _
  | succ count inductionHypothesis =>
      have unfolds (fuel : Nat) : restoreVariables objects fuel s (count + 1) state c =
          (readVariables objects fuel s c).bind (afterRecord objects s count state fuel) :=
        restoreVariables_succ count fuel
      unfold recordsFate
      have ends := record_ends (s := s) objects sound start
      generalize recordFate s c.pos = fate at ends
      cases ends with
      | refuses e c' settles sound' =>
          have here := settles.ran _ (Nat.le_refl _)
          have none : recordsRead objects s (count + 1) c.pos = [] := by
            rw [recordsRead, ← sound_eq sound, here]
          refine .refuses e c' ?_ sound'
          rw [none]
          refine Settles.congr ?_ unfolds
          exact settles.bind (.const _ _)
      | breaks bad =>
          refine .breaks fun fuel r state' c' ended sound' => ?_
          rw [unfolds] at ended
          obtain ⟨⟨result, c₁⟩, read, after⟩ := Option.bind_eq_some_iff.1 ended
          refine bad fuel _ read ⟨?_, fun _ _ => rfl⟩
          cases result with
          | error e =>
              cases after
              exact sound'
          | ok record => exact (leads_restoreVariables after).sound sound'
      | goesOn record c₁ settles sound₁ onward =>
          have here := settles.ran _ (Nat.le_refl _)
          have first : recordsRead objects s (count + 1) c.pos =
              record :: recordsRead objects s count c₁.pos := by
            rw [recordsRead, ← sound_eq sound, here]
          have later := inductionHypothesis (assign objects state record) sound₁
            (start.trans_le onward)
          show SectionEnds objects s (count + 1) state c (recordsFate s count c₁.pos)
          generalize recordsFate s count c₁.pos = fate at later
          cases later with
          | goesOn state' c' settles' sound' =>
              refine .goesOn state' c' (Settles.congr ?_ unfolds) sound' _ _
              exact settles.bind settles'
          | refuses e c' settles' sound' =>
              refine .refuses e c' ?_ sound'
              rw [first, List.foldl_cons]
              refine Settles.congr ?_ unfolds
              exact settles.bind settles'
          | breaks bad =>
              refine .breaks fun fuel r state' c' ended => ?_
              rw [unfolds] at ended
              obtain ⟨outcome, read, after⟩ := Option.bind_eq_some_iff.1 ended
              cases settles.only fuel _ read
              exact bad fuel r state' c' after

end Section

end Kjdmud.Persist
