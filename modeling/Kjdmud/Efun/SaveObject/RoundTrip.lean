import Kjdmud.Efun.SaveObject.Lines
import Mathlib.Data.List.Nodup

/-!
# `restore_object` after `save_object`

A variable is restored from the last line that goes to its slot, so all variables come
back exactly when their names differ and none of their strings holds a tab.
-/

namespace Kjdmud.Efun

open Fuel
open SaveVariable hiding Outcome
open Object (Files Linker compile)
open Vm (CompiledProgram)

/-! ## Slots -/

theorem slotOf_eq_some {names : List Str} {vars : List SaveValue} {name : Str} {slot : Nat} :
    slotOf names vars name = some slot ↔
      names.findIdx? (· == name) = some slot ∧ slot < vars.length := by
  unfold slotOf
  cases names.findIdx? (· == name) with
  | none => simp
  | some found =>
      by_cases inside : found < vars.length
      · simp only [if_pos inside, Option.some.injEq]
        constructor
        · rintro rfl
          exact ⟨rfl, inside⟩
        · exact And.left
      · simp only [if_neg inside, Option.some.injEq]
        constructor
        · intro impossible
          cases impossible
        · rintro ⟨rfl, inside'⟩
          exact absurd inside' inside

/-- The slot of a name is the first with it. -/
theorem findIdx?_name {names : List Str} {name : Str} {slot : Nat} :
    names.findIdx? (· == name) = some slot ↔
      names[slot]? = some name ∧ ∀ i < slot, names[i]? ≠ some name := by
  rw [List.findIdx?_eq_some_iff_getElem]
  constructor
  · rintro ⟨inside, equal, earlier⟩
    refine ⟨?_, fun i before => ?_⟩
    · rw [List.getElem?_eq_getElem inside, beq_iff_eq.1 equal]
    · rw [List.getElem?_eq_getElem (before.trans inside), Ne, Option.some.injEq]
      simpa using earlier i before
  · rintro ⟨here, earlier⟩
    obtain ⟨inside, equal⟩ := List.getElem?_eq_some_iff.1 here
    refine ⟨inside, beq_iff_eq.2 equal, fun i before => ?_⟩
    have different := earlier i before
    rw [List.getElem?_eq_getElem (before.trans inside), Ne, Option.some.injEq] at different
    simpa using different

/-- With different names every variable has its own slot. -/
theorem findIdx?_of_nodup {names : List Str} (nodup : names.Nodup) {name : Str} {slot : Nat}
    (here : names[slot]? = some name) : names.findIdx? (· == name) = some slot := by
  refine findIdx?_name.2 ⟨here, fun i before there => ?_⟩
  obtain ⟨inside, equal⟩ := List.getElem?_eq_some_iff.1 here
  obtain ⟨inside', equal'⟩ := List.getElem?_eq_some_iff.1 there
  have same := (List.Nodup.getElem_inj_iff nodup).1 (equal'.trans equal.symm)
  omega

/-! ## When all variables come back -/

/-- The value of a variable holds no tab. -/
def TabFree (v : SaveValue) : Prop :=
  ∀ s ∈ strings v, tab ∉ s

theorem tab_mem_flatMap_escapeByte {s : Str} : tab ∈ s.flatMap escapeByte ↔ tab ∈ s := by
  rw [List.mem_flatMap]
  constructor
  · rintro ⟨c, member, inside⟩
    rcases escapeByte_cases c with equal | ⟨_, equal⟩ | ⟨_, _, equal⟩
    all_goals rw [equal] at inside
    · simp only [List.mem_cons, List.not_mem_nil, or_false] at inside
      rcases inside with isBackslash | rfl
      · exact absurd isBackslash (by decide)
      · exact member
    · exact absurd (List.mem_singleton.1 inside) (by decide)
    · rw [List.mem_singleton.1 inside]
      exact member
  · intro member
    exact ⟨tab, member, by decide⟩

theorem tabFree_iff {v : SaveValue} (saved : saveable v = true) :
    TabFree v ↔ tab ∉ writeRealSaveValue v := by
  rw [mem_writeRealSaveValue (by decide) saved, Mentions]
  simp only [TabFree, tab_mem_flatMap_escapeByte, not_exists, not_and]

theorem restoreVar_of_slot {names : List Str} {vars : List SaveValue} {name : Str}
    {v : SaveValue} {slot : Nat} (noTab : tab ∉ writeRealSaveValue v)
    (isSlot : slotOf names vars name = some slot) :
    restoreVar names vars (name, v) = vars.set slot (normalise v) := by
  rw [restoreVar, if_neg fun found => noTab (List.contains_iff_mem.1 found)]
  simp only [isSlot]

/-- Different names and no tabs: the lines are restored one after the other. -/
theorem foldl_restoreVar {names : List Str} (nodup : names.Nodup) {done saved : List Str}
    {doneValues values rest : List SaveValue} (split : names = done ++ saved)
    (lengths : doneValues.length = done.length ∧ values.length = saved.length ∧
      rest.length = saved.length)
    (noTab : ∀ v ∈ values, tab ∉ writeRealSaveValue v) :
    (saved.zip values).foldl (restoreVar names) (doneValues ++ rest) =
      doneValues ++ values.map normalise := by
  obtain ⟨doneLength, valuesLength, restLength⟩ := lengths
  induction saved generalizing done doneValues values rest with
  | nil =>
      rw [List.length_eq_zero_iff.1 valuesLength, List.length_eq_zero_iff.1 restLength]
      rfl
  | cons name saved inductionHypothesis =>
      obtain ⟨v, values, rfl⟩ := List.exists_cons_of_length_eq_add_one valuesLength
      obtain ⟨old, rest, rfl⟩ := List.exists_cons_of_length_eq_add_one restLength
      have here : names[doneValues.length]? = some name := by
        rw [split, doneLength, List.getElem?_append_right (Nat.le_refl _), Nat.sub_self]
        rfl
      have isSlot : slotOf names (doneValues ++ old :: rest) name = some doneValues.length := by
        refine slotOf_eq_some.2 ⟨findIdx?_of_nodup nodup here, ?_⟩
        rw [List.length_append, List.length_cons]
        omega
      have set_ : (doneValues ++ old :: rest).set doneValues.length (normalise v) =
          (doneValues ++ [normalise v]) ++ rest := by
        rw [List.set_append_right _ _ (Nat.le_refl _), Nat.sub_self, List.set_cons_zero,
          List.append_assoc, List.singleton_append]
      have split' : names = (done ++ [name]) ++ saved := by
        rw [split, List.append_assoc, List.singleton_append]
      have doneLength' : (doneValues ++ [normalise v]).length = (done ++ [name]).length := by
        rw [List.length_append, List.length_append, doneLength]
        rfl
      rw [List.zip_cons_cons, List.foldl_cons,
        restoreVar_of_slot (noTab v List.mem_cons_self) isSlot, set_,
        inductionHypothesis split' (fun v mem => noTab v (List.mem_cons_of_mem _ mem)) doneLength'
          (Nat.succ.inj valuesLength) (Nat.succ.inj restLength),
        List.append_assoc, List.singleton_append, List.map_cons]

/-- A slot that changes is the slot of a line without a tab. -/
theorem written_of_foldl {names : List Str} {saved : List (Str × SaveValue)}
    {vars : List SaveValue} {slot : Nat}
    (changed : (saved.foldl (restoreVar names) vars)[slot]? ≠ vars[slot]?) :
    ∃ var ∈ saved, tab ∉ writeRealSaveValue var.2 ∧
      names.findIdx? (· == var.1) = some slot := by
  induction saved generalizing vars with
  | nil => exact absurd rfl changed
  | cons var saved inductionHypothesis =>
      rw [List.foldl_cons] at changed
      by_cases later : (saved.foldl (restoreVar names) (restoreVar names vars var))[slot]? =
          (restoreVar names vars var)[slot]?
      · rw [later] at changed
        refine ⟨var, List.mem_cons_self, ?_⟩
        unfold restoreVar at changed
        split at changed
        · exact absurd rfl changed
        · rename_i noTab
          split at changed
          · rename_i slot' isSlot
            obtain rfl : slot' = slot := by
              by_contra other
              exact changed (List.getElem?_set_ne other)
            exact ⟨fun member => noTab (List.contains_iff_mem.2 member),
              (slotOf_eq_some.1 isSlot).1⟩
          · exact absurd rfl changed
      · obtain ⟨other, member, found⟩ := inductionHypothesis later
        exact ⟨other, List.mem_cons_of_mem _ member, found⟩

theorem normalise_ne_void (v : SaveValue) : normalise v ≠ .void := by
  cases v <;> simp [normalise, zero]

/-- If variables that held nothing come back, then all names differ and no line has a
tab. -/
theorem of_foldl_restoreVar {names : List Str} {values : List SaveValue}
    (lengths : values.length = names.length)
    (restored : (names.zip values).foldl (restoreVar names)
      (List.replicate names.length SaveValue.void) = values.map normalise) :
    names.Nodup ∧ ∀ v ∈ values, tab ∉ writeRealSaveValue v := by
  have own (slot : Nat) (inside : slot < names.length) :
      ∃ (i : Nat) (v : SaveValue), (names.zip values)[i]? = some (names[slot], v) ∧
        tab ∉ writeRealSaveValue v ∧ names.findIdx? (· == names[slot]) = some slot := by
    have changed : ((names.zip values).foldl (restoreVar names)
        (List.replicate names.length SaveValue.void))[slot]? ≠
          (List.replicate names.length SaveValue.void)[slot]? := by
      rw [restored, List.getElem?_map, List.getElem?_eq_getElem (by omega),
        List.getElem?_replicate, if_pos inside]
      exact fun same => normalise_ne_void _ (Option.some.inj same)
    obtain ⟨⟨name, v⟩, member, noTab, isSlot⟩ := written_of_foldl changed
    obtain ⟨i, here⟩ := List.mem_iff_getElem?.1 member
    obtain rfl : name = names[slot] := by
      have there := (findIdx?_name.1 isSlot).1
      rw [List.getElem?_eq_getElem inside] at there
      exact (Option.some.inj there).symm
    exact ⟨i, v, here, noTab, isSlot⟩
  have nodup : names.Nodup := by
    rw [List.nodup_iff_injective_get]
    rintro ⟨i, inside⟩ ⟨j, inside'⟩ same
    have sameName : names[i] = names[j] := same
    obtain ⟨_, _, _, _, isSlot⟩ := own i inside
    obtain ⟨_, _, _, _, isSlot'⟩ := own j inside'
    rw [sameName] at isSlot
    exact Fin.ext (Option.some.inj (isSlot.symm.trans isSlot'))
  refine ⟨nodup, fun v member => ?_⟩
  obtain ⟨slot, inside, rfl⟩ := List.mem_iff_getElem.1 member
  have inNames : slot < names.length := by omega
  obtain ⟨i, v, here, noTab, _⟩ := own slot inNames
  obtain ⟨isName, isValue⟩ := List.getElem?_zip_eq_some.1 here
  obtain ⟨inside', equal⟩ := List.getElem?_eq_some_iff.1 isName
  obtain rfl : i = slot := (List.Nodup.getElem_inj_iff nodup).1 equal
  rw [List.getElem?_eq_getElem inside, Option.some.injEq] at isValue
  rwa [isValue]

/-! ## The two efuns -/

/-- The master lets the efuns read and write the same file under a path. -/
def Driver.SameFile (driver : Driver) (path : Str) : Prop :=
  driver.checkValidPath (normalizeSavePath path) false (str "restore_object") =
    driver.checkValidPath (normalizeSavePath path) true (str "save_object")

/-- Whatever is saved of an object, another object of its program gets back, each
variable in its own slot. -/
def RoundTrips (program : CompiledProgram) (filename : Str) (vars : List SaveValue) : Prop :=
  ∀ (driver : Driver) (disk disk' : Disk) (path : Str) (other : SaveObject),
    driver.SameFile path →
      saveObject driver [.string path] (some ⟨filename, program.objectVarNames, vars⟩) disk =
        (.ok (.int 1 false), disk') →
      other.objectVarNames = program.objectVarNames → other.vars.length = vars.length →
        Converges (restoreObject driver disk' [.string path] (some other))
          (.ok (.int 1 false), vars.map normalise)

/-- A save that succeeds leaves the text of the object on the disk. -/
theorem saveObject_ok {driver : Driver} {path : Str} {obj : SaveObject} {disk disk' : Disk}
    (saved : saveObject driver [.string path] (some obj) disk = (.ok (.int 1 false), disk')) :
    ∃ gated, driver.checkValidPath (normalizeSavePath path) true (str "save_object") =
      some gated ∧ disk' (driver.resolveMudlibPath gated) = some (saveText obj) := by
  unfold saveObject at saved
  simp only at saved
  split at saved
  · exact absurd (congrArg Prod.fst saved) (by simp [zero])
  · rename_i gated allowed
    split at saved
    · obtain rfl := congrArg Prod.snd saved
      exact ⟨gated, allowed, if_pos rfl⟩
    · exact absurd (congrArg Prod.fst saved) (by simp [zero])

/-- What restoring a saved file does, line by line. -/
theorem converges_restoreObject {driver : Driver} {path : Str} {obj other : SaveObject}
    {disk disk' : Disk} (sameFile : driver.SameFile path)
    (saved : saveObject driver [.string path] (some obj) disk = (.ok (.int 1 false), disk'))
    (filename : lf ∉ obj.filename) (named : ∀ name ∈ obj.objectVarNames, IsVarName name)
    (saveable_ : ∀ v ∈ obj.vars, saveable v = true)
    (sameProgram : other.objectVarNames = obj.objectVarNames) :
    Converges (restoreObject driver disk' [.string path] (some other))
      (.ok (.int 1 false),
        (obj.objectVarNames.zip obj.vars).foldl (restoreVar obj.objectVarNames) other.vars) := by
  obtain ⟨gated, allowed, contents⟩ := saveObject_ok saved
  have namedVars : ∀ var ∈ obj.objectVarNames.zip obj.vars, IsVarName var.1 :=
    fun var member => named _ (List.of_mem_zip member).1
  have savedVars : ∀ var ∈ obj.objectVarNames.zip obj.vars, saveable var.2 = true :=
    fun var member => saveable_ _ (List.of_mem_zip member).2
  have restored := (restoreLines_vars named namedVars savedVars other.vars).map
    fun result => (result.1.map fun _ => SaveValue.int 1 false, result.2)
  refine restored.congr fun fuel => ?_
  simp only [restoreObject, show driver.checkValidPath (normalizeSavePath path) false
    (str "restore_object") = some gated from sameFile.trans allowed, contents, sameProgram,
    lines_saveText filename namedVars savedVars]
  generalize (obj.objectVarNames.zip obj.vars).map (fun var => varLine var.1 var.2) = later
  have comment : restoreLines fuel obj.objectVarNames ((hash :: obj.filename) :: later)
      other.vars = restoreLines fuel obj.objectVarNames later other.vars := by
    refine restoreLines_skip (fun name read split => ?_) fuel
    rw [splitLine_comment] at split
    cases split
  rw [comment]

/-- A driver whose master allows everything. -/
def permissive : Driver where
  checkValidPath path _ _ := some path
  mudlibRoot := []
  opens _ := true

theorem permissive_sameFile (path : Str) : permissive.SameFile path :=
  rfl

/-- If whatever another object holds is restored over, then names differ and there are no
tabs. -/
theorem of_roundTrips {program : CompiledProgram} (named : Object.NamesHave IsVarName program)
    {filename : Str} (oneLine : lf ∉ filename) {vars : List SaveValue}
    (full : vars.length = program.objectVarNames.length) (saved : ∀ v ∈ vars, saveable v = true)
    (roundTrips : RoundTrips program filename vars) :
    program.objectVarNames.Nodup ∧ ∀ v ∈ vars, tab ∉ writeRealSaveValue v := by
  obtain ⟨disk', isDisk⟩ : ∃ disk', saveObject permissive [.string []]
      (some ⟨filename, program.objectVarNames, vars⟩) (fun _ => none) =
        (.ok (.int 1 false), disk') := ⟨_, rfl⟩
  let empty : SaveObject :=
    ⟨filename, program.objectVarNames, List.replicate program.objectVarNames.length .void⟩
  have sameLength : empty.vars.length = vars.length := by
    rw [full]
    exact List.length_replicate
  have restored := roundTrips _ _ _ _ empty (permissive_sameFile []) isDisk rfl sameLength
  have lineByLine : Converges (restoreObject permissive disk' [.string []] (some empty)) _ :=
    converges_restoreObject (permissive_sameFile []) isDisk oneLine named saved rfl
  exact of_foldl_restoreVar full (congrArg Prod.snd (lineByLine.unique restored))

/-- **Saving and restoring an object.**  Another object of the program gets every
variable back exactly when the names of the variables differ and no string in them
holds a tab. -/
theorem restore_object_save_object_iff {files : Files} {budget : Nat} {rawFilename : Str}
    {l l' : Linker} {program : CompiledProgram} (reachable : l.ReachableWith IsVarName)
    (named : files.NamesHave IsVarName)
    (compiled : compile files budget rawFilename l = some (some program, l'))
    {filename : Str} (oneLine : lf ∉ filename) {vars : List SaveValue}
    (full : vars.length = program.objectVarNames.length)
    (saved : ∀ v ∈ vars, saveable v = true) :
    RoundTrips program filename vars ↔
      program.objectVarNames.Nodup ∧ ∀ v ∈ vars, TabFree v := by
  have names := Object.compile_namesHave reachable named isVarName_private compiled
  have noTabs : (∀ v ∈ vars, TabFree v) ↔ ∀ v ∈ vars, tab ∉ writeRealSaveValue v :=
    forall₂_congr fun v member => tabFree_iff (saved v member)
  rw [noTabs]
  constructor
  · exact of_roundTrips names oneLine full saved
  · rintro ⟨nodup, noTab⟩ driver disk disk' path other sameFile isDisk sameProgram sameLength
    have lineByLine := converges_restoreObject sameFile isDisk oneLine names saved sameProgram
    have split : program.objectVarNames = [] ++ program.objectVarNames := rfl
    have inPlace : (program.objectVarNames.zip vars).foldl (restoreVar program.objectVarNames)
        ([] ++ other.vars) = [] ++ vars.map normalise :=
      foldl_restoreVar nodup split ⟨rfl, full, sameLength.trans full⟩ noTab
    rw [List.nil_append, List.nil_append] at inPlace
    rwa [inPlace] at lineByLine

/-- `/a` declares a variable, and `/child` inherits it and declares another of the same
name. -/
def sampleParse (filename : Str) : Option Compiler.Program :=
  if filename = str "/a" then some ⟨[], [⟨str "int", str "score", false, none⟩], [], []⟩
  else if filename = str "/child" then
    some ⟨[], [⟨str "int", str "score", false, none⟩], [str "/a"], []⟩
  else none

/-- The disk with these files. -/
def sampleFiles : Files where
  source := some
  parse filename _ := sampleParse filename

theorem sampleFiles_named : sampleFiles.NamesHave IsVarName := by
  have isName : IsVarName (str "score") := ⟨by decide, by decide +kernel⟩
  intro filename source ast parsed decl member
  replace parsed : sampleParse filename = some ast := parsed
  unfold sampleParse at parsed
  split at parsed
  · cases parsed
    cases List.mem_singleton.1 member
    exact isName
  · split at parsed
    · cases parsed
      cases List.mem_singleton.1 member
      exact isName
    · cases parsed

theorem sample_compiles : ∃ program l',
    compile sampleFiles 4 (str "/child") {} = some (some program, l') ∧
      program.objectVarNames = [str "score", str "score"] := by
  have sample : ((compile sampleFiles 4 (str "/child") {}).bind Prod.fst).any
      (fun program => decide (program.objectVarNames = [str "score", str "score"])) = true := by
    decide
  cases result : compile sampleFiles 4 (str "/child") {} with
  | none =>
      rw [result] at sample
      cases sample
  | some compilation =>
      obtain ⟨program | program, l'⟩ := compilation
      · rw [result] at sample
        cases sample
      · rw [result] at sample
        exact ⟨program, l', rfl, of_decide_eq_true sample⟩

/-- The condition on the sample. -/
theorem restore_object_save_object_iff_sample : ∃ program l',
    compile sampleFiles 4 (str "/child") {} = some (some program, l') ∧
      (RoundTrips program (str "/child") [.int 1 false, .int 2 false] ↔
        program.objectVarNames.Nodup ∧
          ∀ v ∈ [SaveValue.int 1 false, .int 2 false], TabFree v) := by
  obtain ⟨program, l', compiled, names⟩ := sample_compiles
  exact ⟨program, l', compiled, restore_object_save_object_iff .start sampleFiles_named compiled
    (by decide) (by rw [names]; rfl) (by decide)⟩

/-- In the sample the second variable is never restored. -/
theorem sample_not_restored : ∃ program l',
    compile sampleFiles 4 (str "/child") {} = some (some program, l') ∧
      ¬ RoundTrips program (str "/child") [.int 1 false, .int 2 false] := by
  obtain ⟨program, l', compiled, names⟩ := sample_compiles
  refine ⟨program, l', compiled, fun roundTrips => ?_⟩
  have named := Object.compile_namesHave .start sampleFiles_named isVarName_private compiled
  have nodup := (of_roundTrips named (by decide) (by rw [names]; rfl) (by decide) roundTrips).1
  rw [names] at nodup
  revert nodup
  decide

end Kjdmud.Efun
