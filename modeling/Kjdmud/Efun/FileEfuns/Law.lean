import Kjdmud.Efun.FileEfuns.Confinement

/-!
# When a file efun keeps inside the mudlib and serves it

For each efun: which of its paths the operating system gets unchecked, and which go through
the gate as they are.  These two lists decide whether a call keeps inside and whether it
refuses a path that is to be served.
-/

namespace Kjdmud.Efun

open SaveVariable (SaveValue)
open FileProgram

namespace FileEfun

/-- The two paths of an efun that takes two. -/
def pairArgs (args : List SaveValue) : List Str :=
  match argString args 0, argString args 1 with
  | some source, some target => [source, target]
  | _, _ => []

/-- The paths that go to the operating system without the gate. -/
def unchecked (efun : FileEfun) (args : List SaveValue) : List Str :=
  match efun with
  | fileSize | fileLength | stat => (argString args 0).toList
  | link | cp => pairArgs args
  | _ => []

/-- The paths that go through the gate as they are, on the way to the operating system. -/
def checked (efun : FileEfun) (args : List SaveValue) : List Str :=
  match efun with
  | readFile => if (argInt args 2).getD 0 < 0 then [] else (argString args 0).toList
  | readBytes => if (argInt args 2).getD 0 < 0 then [] else (argString args 0).toList
  | readBuffer =>
      match optionalInt args 1, optionalInt args 2 with
      | some _, some len => if len < 0 then [] else (argString args 0).toList
      | _, _ => []
  | writeFile =>
      match argString args 1 with
      | some _ => (argString args 0).toList
      | none => []
  | writeBytes | writeBuffer =>
      match argInt args 1, argString args 2 with
      | some _, some _ => (argString args 0).toList
      | _, _ => []
  | getDir | stat =>
      match optionalInt args 1 with
      | some _ => (argString args 0).toList
      | none => []
  | rm | mkdir | rmdir => (argString args 0).toList
  | rename => pairArgs args
  | fileSize | fileLength | link | cp | saveObject | restoreObject => []

/-- The call does not do what it does without a gate. -/
def Refuses (efun : FileEfun) (driver : FileDriver) (args : List SaveValue) : Prop :=
  efun.call driver args ≠ efun.call driver.ungated args

/-- Every path that the call can hand over is inside the mudlib, and no path that is to be
served is refused. -/
structure KeepsInside (efun : FileEfun) (driver : FileDriver) (args : List SaveValue) :
    Prop where
  inside : (efun.call driver args).Stays driver.mudlibRoot
  serves : (∀ path ∈ efun.pathArgs args, Usual path) → ¬ efun.Refuses driver args

end FileEfun

namespace FileDriver

variable {driver : FileDriver}

/-! ## What is not checked -/

theorem inside_resolve_iff (driver : FileDriver) {path : Str} :
    Inside driver.mudlibRoot (driver.resolve path) ↔
      parentDir ∉ components (cString (normalized path)) :=
  inside_append_iff

theorem stays_fileSize_iff (args : List SaveValue) :
    (driver.fileSize args).Stays driver.mudlibRoot ↔
      ∀ path ∈ (argString args 0).toList,
        parentDir ∉ components (cString (normalized path)) := by
  unfold fileSize
  cases argString args 0 with
  | none => exact iff_of_true (stays_done _) fun path member => by cases member
  | some path =>
      dsimp only
      rw [Option.toList_some, List.forall_mem_singleton, ← inside_resolve_iff driver]
      refine (stays_ask rfl).trans (and_iff_left fun st => ?_)
      split
      · exact stays_done _
      · split
        · exact stays_done _
        · exact stays_done _

theorem stays_fileLength_iff (args : List SaveValue) :
    (driver.fileLength args).Stays driver.mudlibRoot ↔
      ∀ path ∈ (argString args 0).toList,
        parentDir ∉ components (cString (normalized path)) := by
  unfold fileLength
  cases argString args 0 with
  | none => exact iff_of_true (stays_done _) fun path member => by cases member
  | some path =>
      dsimp only
      rw [Option.toList_some, List.forall_mem_singleton, ← inside_resolve_iff driver]
      refine (stays_ask rfl).trans (and_iff_left_of_imp fun inside st => ?_)
      split
      · exact stays_done _
      · split
        · exact stays_done _
        · refine (stays_ask rfl).mpr ⟨inside, fun f => ?_⟩
          split
          · exact stays_done _
          · exact stays_done _

theorem stays_stat_iff (permissive : driver.Permissive) (args : List SaveValue) :
    (driver.stat args).Stays driver.mudlibRoot ↔
      ∀ path ∈ (argString args 0).toList,
        parentDir ∉ components (cString (normalized path)) := by
  unfold stat
  cases argString args 0 with
  | none => exact iff_of_true (stays_done _) fun path member => by cases member
  | some path =>
      dsimp only
      rw [Option.toList_some, List.forall_mem_singleton, ← inside_resolve_iff driver]
      refine (stays_ask rfl).trans (and_iff_left fun st => ?_)
      rcases st with - | ⟨kind, size, mtime⟩
      · exact stays_getDir permissive _
      · cases kind with
        | regular => exact stays_done _
        | directory => exact stays_getDir permissive _
        | other => exact stays_getDir permissive _

theorem stays_link_iff (args : List SaveValue) :
    (driver.link args).Stays driver.mudlibRoot ↔
      ∀ path ∈ FileEfun.pairArgs args,
        parentDir ∉ components (cString (normalized path)) := by
  unfold link FileEfun.pairArgs
  cases argString args 0 with
  | none => exact iff_of_true (stays_done _) fun path member => by cases member
  | some source =>
      cases argString args 1 with
      | none => exact iff_of_true (stays_done _) fun path member => by cases member
      | some target =>
          dsimp only
          rw [List.forall_mem_cons, List.forall_mem_singleton, ← inside_resolve_iff driver,
            ← inside_resolve_iff driver]
          constructor
          · intro stays
            have both := stays.1
            exact ⟨both _ List.mem_cons_self, both _ (List.mem_cons_of_mem _ List.mem_cons_self)⟩
          · rintro ⟨first, second⟩
            have both := List.forall_mem_cons.mpr ⟨first, List.forall_mem_singleton.mpr second⟩
            exact ⟨both, fun ok => stays_done _⟩

theorem stays_cp_iff (args : List SaveValue) :
    (driver.cp args).Stays driver.mudlibRoot ↔
      ∀ path ∈ FileEfun.pairArgs args,
        parentDir ∉ components (cString (normalized path)) := by
  unfold cp FileEfun.pairArgs
  cases argString args 0 with
  | none => exact iff_of_true (stays_done _) fun path member => by cases member
  | some source =>
      cases argString args 1 with
      | none => exact iff_of_true (stays_done _) fun path member => by cases member
      | some target =>
          dsimp only
          rw [List.forall_mem_cons, List.forall_mem_singleton, ← inside_resolve_iff driver,
            ← inside_resolve_iff driver]
          constructor
          · intro stays
            have first := (stays_ask rfl).mp stays
            -- the target is opened only when the source could be read
            have second := (stays_ask rfl).mp (first.2 (some ⟨0, []⟩))
            exact ⟨first.1, second.1⟩
          · rintro ⟨first, second⟩
            refine (stays_ask rfl).mpr ⟨first, fun f => ?_⟩
            split
            · exact stays_done _
            · refine (stays_ask rfl).mpr ⟨second, fun ok => ?_⟩
              split
              · exact stays_write fun ok => stays_done _
              · exact stays_done _

end FileDriver

/-- A call keeps inside exactly when its unchecked paths do. -/
theorem FileEfun.stays_iff {driver : FileDriver} (permissive : driver.Permissive)
    (efun : FileEfun) (args : List SaveValue) :
    (efun.call driver args).Stays driver.mudlibRoot ↔
      ∀ path ∈ efun.unchecked args, parentDir ∉ components (cString (normalized path)) := by
  have gated : ∀ program : FileProgram, program.Stays driver.mudlibRoot →
      (program.Stays driver.mudlibRoot ↔
        ∀ path ∈ ([] : List Str), parentDir ∉ components (cString (normalized path))) :=
    fun program stays => iff_of_true stays fun path member => by cases member
  cases efun with
  | readFile => exact gated _ (FileDriver.stays_readFile permissive args)
  | writeFile => exact gated _ (FileDriver.stays_writeFile permissive args)
  | fileSize => exact FileDriver.stays_fileSize_iff args
  | fileLength => exact FileDriver.stays_fileLength_iff args
  | getDir => exact gated _ (FileDriver.stays_getDir permissive args)
  | rm => exact gated _ (FileDriver.stays_rm permissive args)
  | mkdir => exact gated _ (FileDriver.stays_mkdir permissive args)
  | rmdir => exact gated _ (FileDriver.stays_rmdir permissive args)
  | rename => exact gated _ (FileDriver.stays_rename permissive args)
  | cp => exact FileDriver.stays_cp_iff args
  | stat => exact FileDriver.stays_stat_iff permissive args
  | link => exact FileDriver.stays_link_iff args
  | readBytes => exact gated _ (FileDriver.stays_readBytes permissive args)
  | writeBytes => exact gated _ (FileDriver.stays_writeBytes permissive args)
  | readBuffer => exact gated _ (FileDriver.stays_readBuffer permissive args)
  | writeBuffer => exact gated _ (FileDriver.stays_writeBuffer permissive args)
  | saveObject => exact gated _ (FileDriver.stays_saveObject permissive args)
  | restoreObject => exact gated _ (FileDriver.stays_restoreObject permissive args)

/-! ## What is refused -/

/-- How a call takes its path, if it has one, through the gate: the paths of its arguments, and
those that the gate decides about. -/
inductive Gated (call : FileDriver → FileProgram) : List Str → List Str → Prop
  /-- The call ends before the gate. -/
  | free {paths : List Str} (same : ∀ driver, call driver = call driver.ungated) :
      Gated call paths []
  /-- The gate is passed where the argument is to be served. -/
  | passed {path : Str}
      (same : Usual path → ∀ driver : FileDriver, driver.Permissive →
        call driver = call driver.ungated) : Gated call [path] []
  /-- Behind the gate the call does what it does when it is refused. -/
  | idle {path funcName : Str} {writeFlag : Bool} {refused : FileProgram}
      (calls : ∀ driver,
        call driver = driver.gated path writeFlag funcName refused fun _ => refused) :
      Gated call [path] []
  /-- Behind the gate the operating system is asked. -/
  | path {path funcName : Str} {writeFlag : Bool}
      {result : Option (Except RestoreError SaveValue)} {body : FileDriver → Str → FileProgram}
      (calls : ∀ driver,
        call driver = driver.gated path writeFlag funcName (.done result) (body driver))
      (same : ∀ driver, body driver.ungated = body driver)
      (opens : ∀ driver file, (body driver file).Opens) : Gated call [path] [path]

/-- The gate of FluffOS decides about the root, among paths that are to be served. -/
def RefusesRoot (driver : FileDriver) (checked : List Str) : Prop :=
  driver.gate.ldmud = false ∧ [slash] ∈ checked ∧ ∀ path ∈ checked, Usual path

theorem served_of_not_refusesRoot {driver : FileDriver} {path : Str} {checked : List Str}
    (usual : ∀ path ∈ checked, Usual path) (serves : ¬ RefusesRoot driver checked)
    (member : path ∈ checked) : driver.gate.legal (checkPath path) = true := by
  apply legal_of_usual (usual path member)
  cases dialect : driver.gate.ldmud with
  | true => exact .inl rfl
  | false => exact .inr fun root => serves ⟨dialect, root ▸ member, usual⟩

/-- A call serves its paths unless the gate leaves the root out. -/
theorem Gated.serves_iff {driver : FileDriver} (permissive : driver.Permissive)
    {call : FileDriver → FileProgram} {paths checked : List Str}
    (gated : Gated call paths checked) :
    ((∀ path ∈ paths, Usual path) → call driver = call driver.ungated) ↔
      ¬ RefusesRoot driver checked := by
  have none_ : ¬ RefusesRoot driver [] := fun refuses => by cases refuses.2.1
  cases gated with
  | free same => exact iff_of_true (fun _ => same driver) none_
  | @passed path same =>
      exact iff_of_true (fun usual => same (usual path List.mem_cons_self) driver permissive) none_
  | @idle path funcName writeFlag refused calls =>
      refine iff_of_true (fun usual => ?_) none_
      rw [calls, calls, FileDriver.ungated_gated]
      by_cases refuses : RefusesRoot driver [path]
      · have root := List.mem_singleton.mp refuses.2.1
        rw [← root, FileDriver.gated_of_illegal permissive refuses.1 (not_legal_root refuses.1)]
      · have passes := served_of_not_refusesRoot usual refuses List.mem_cons_self
        rw [FileDriver.gated_of_legal permissive passes]
  | @path path funcName writeFlag result body calls same opens =>
      rw [calls, calls, FileDriver.ungated_gated, same]
      constructor
      · intro serves refuses
        have root := List.mem_singleton.mp refuses.2.1
        have same := serves refuses.2.2
        rw [← root, FileDriver.gated_of_illegal permissive refuses.1
          (not_legal_root refuses.1)] at same
        exact (opens driver _).ne_done result same
      · intro serves usual
        have passes := served_of_not_refusesRoot usual serves List.mem_cons_self
        exact FileDriver.gated_of_legal permissive passes

namespace FileDriver

variable (args : List SaveValue)

theorem gated_readFile :
    Gated (FileDriver.readFile · args) (FileEfun.pathArgs .readFile args)
      (FileEfun.checked .readFile args) := by
  unfold FileEfun.pathArgs FileEfun.checked readFile
  dsimp only
  cases argString args 0 with
  | none =>
      rw [Option.toList_none, ite_self]
      exact .free fun driver => rfl
  | some path =>
      dsimp only
      split
      · exact .free fun driver => rfl
      · apply Gated.path
        · exact fun driver => rfl
        · exact fun driver => rfl
        · exact fun driver file => True.intro

theorem gated_readBytes :
    Gated (FileDriver.readBytes · args) (FileEfun.pathArgs .readBytes args)
      (FileEfun.checked .readBytes args) := by
  unfold FileEfun.pathArgs FileEfun.checked readBytes
  dsimp only
  cases argString args 0 with
  | none =>
      rw [Option.toList_none, ite_self]
      exact .free fun driver => rfl
  | some path =>
      dsimp only
      split
      · exact .idle fun driver => rfl
      · apply Gated.path
        · exact fun driver => rfl
        · exact fun driver => rfl
        · exact fun driver file => True.intro

theorem gated_readBuffer :
    Gated (FileDriver.readBuffer · args) (FileEfun.pathArgs .readBuffer args)
      (FileEfun.checked .readBuffer args) := by
  unfold FileEfun.pathArgs FileEfun.checked readBuffer
  cases args with
  | nil => exact .free fun driver => rfl
  | cons source options =>
      dsimp only
      cases optionalInt (source :: options) 1 with
      | none => exact .free fun driver => rfl
      | some start =>
          cases optionalInt (source :: options) 2 with
          | none => exact .free fun driver => rfl
          | some len =>
              cases argString (source :: options) 0 with
              | none =>
                  dsimp only
                  rw [Option.toList_none, ite_self]
                  exact .free fun driver => rfl
              | some path =>
                  dsimp only
                  split
                  · exact .idle fun driver => rfl
                  · apply Gated.path
                    · exact fun driver => rfl
                    · exact fun driver => rfl
                    · exact fun driver file => True.intro

theorem gated_writeFile :
    Gated (FileDriver.writeFile · args) (FileEfun.pathArgs .writeFile args)
      (FileEfun.checked .writeFile args) := by
  unfold FileEfun.pathArgs FileEfun.checked writeFile
  dsimp only
  cases argString args 0 with
  | none =>
      cases argString args 1 with
      | none => exact .free fun driver => rfl
      | some content => exact .free fun driver => rfl
  | some path =>
      cases argString args 1 with
      | none => exact .free fun driver => rfl
      | some content =>
          apply Gated.path
          · exact fun driver => rfl
          · exact fun driver => rfl
          · exact fun driver file => True.intro

theorem gated_writeBytes :
    Gated (FileDriver.writeBytes · args) (FileEfun.pathArgs .writeBytes args)
      (FileEfun.checked .writeBytes args) := by
  unfold FileEfun.pathArgs FileEfun.checked writeBytes
  dsimp only
  cases argInt args 1 with
  | none =>
      cases argString args 0 with
      | none => exact .free fun driver => rfl
      | some path => exact .free fun driver => rfl
  | some start =>
      cases argString args 2 with
      | none =>
          cases argString args 0 with
          | none => exact .free fun driver => rfl
          | some path => exact .free fun driver => rfl
      | some data =>
          cases argString args 0 with
          | none => exact .free fun driver => rfl
          | some path =>
              apply Gated.path
              · exact fun driver => rfl
              · exact fun driver => rfl
              · exact fun driver file => True.intro

theorem gated_writeBuffer :
    Gated (FileDriver.writeBuffer · args) (FileEfun.pathArgs .writeBuffer args)
      (FileEfun.checked .writeBuffer args) := by
  have third : argString args 2 = args[2]?.bind stringOf := rfl
  unfold FileEfun.pathArgs FileEfun.checked writeBuffer
  dsimp only
  rw [third]
  cases argInt args 1 with
  | none => exact .free fun driver => rfl
  | some start =>
      cases argString args 0 with
      | none =>
          cases args[2]? with
          | none => exact .free fun driver => rfl
          | some data =>
              rw [Option.bind_some]
              cases stringOf data with
              | none => exact .free fun driver => rfl
              | some data => exact .free fun driver => rfl
      | some path =>
          cases args[2]? with
          | none => exact .free fun driver => rfl
          | some data =>
              dsimp only [Option.bind_some]
              cases stringOf data with
              | none => exact .free fun driver => rfl
              | some data =>
                  apply Gated.path
                  · exact fun driver => rfl
                  · exact fun driver => rfl
                  · exact fun driver file => True.intro

theorem gated_getDir :
    Gated (FileDriver.getDir · args) (FileEfun.pathArgs .getDir args)
      (FileEfun.checked .getDir args) := by
  unfold FileEfun.pathArgs FileEfun.checked getDir
  dsimp only
  cases argString args 0 with
  | none =>
      cases optionalInt args 1 with
      | none => exact .free fun driver => rfl
      | some flags => exact .free fun driver => rfl
  | some path =>
      cases optionalInt args 1 with
      | none => exact .free fun driver => rfl
      | some flags =>
          apply Gated.path
          · exact fun driver => rfl
          · exact fun driver => rfl
          · intro driver file
            by_cases wild : (splitLast file).2.any isWildcard
            · rw [if_pos wild]
              exact True.intro
            · rw [if_neg wild]
              exact True.intro

theorem gated_rm :
    Gated (FileDriver.rm · args) (FileEfun.pathArgs .rm args)
      (FileEfun.checked .rm args) := by
  unfold FileEfun.pathArgs FileEfun.checked
  dsimp only
  cases first : argString args 0 with
  | none => exact .free fun driver => by unfold rm; rw [first]
  | some path =>
      apply Gated.path
      · intro driver
        unfold rm
        rw [first]
        rfl
      · exact fun driver => rfl
      · exact fun driver file => True.intro

theorem gated_mkdir :
    Gated (FileDriver.mkdir · args) (FileEfun.pathArgs .mkdir args)
      (FileEfun.checked .mkdir args) := by
  unfold FileEfun.pathArgs FileEfun.checked
  dsimp only
  cases first : argString args 0 with
  | none => exact .free fun driver => by unfold mkdir; rw [first]
  | some path =>
      apply Gated.path
      · intro driver
        unfold mkdir
        rw [first]
        rfl
      · exact fun driver => rfl
      · exact fun driver file => True.intro

theorem gated_rmdir :
    Gated (FileDriver.rmdir · args) (FileEfun.pathArgs .rmdir args)
      (FileEfun.checked .rmdir args) := by
  unfold FileEfun.pathArgs FileEfun.checked
  dsimp only
  cases first : argString args 0 with
  | none => exact .free fun driver => by unfold rmdir; rw [first]
  | some path =>
      apply Gated.path
      · intro driver
        unfold rmdir
        rw [first]
        rfl
      · exact fun driver => rfl
      · exact fun driver file => True.intro

theorem gated_object :
    Gated (FileDriver.saveObject · args) (FileEfun.pathArgs .saveObject args)
        (FileEfun.checked .saveObject args) ∧
      Gated (FileDriver.restoreObject · args) (FileEfun.pathArgs .restoreObject args)
        (FileEfun.checked .restoreObject args) := by
  unfold FileEfun.pathArgs FileEfun.checked saveObject restoreObject
  dsimp only
  cases argString args 0 with
  | none => exact ⟨.free fun driver => rfl, .free fun driver => rfl⟩
  | some path =>
      constructor
      all_goals
        refine .passed fun usual driver permissive => ?_
        have same : driver.ungated.currentObject = driver.currentObject := rfl
        rw [same]
        cases driver.currentObject with
        | none => rfl
        | some obj => exact gated_of_legal permissive (legal_normalizeSavePath usual)

/-- `stat` refuses what `get_dir` refuses. -/
theorem stat_eq_iff {driver : FileDriver} {path : Str} (first : argString args 0 = some path) :
    driver.stat args = driver.ungated.stat args ↔
      driver.getDir (args.take 2) = driver.ungated.getDir (args.take 2) := by
  unfold stat
  rw [first]
  constructor
  · intro same
    have next := (Asking.ask.inj same).2
    exact congrFun (eq_of_heq next) none
  · intro same
    dsimp only
    rw [same]
    rfl

theorem serves_stat {driver : FileDriver} (permissive : driver.Permissive) :
    ((∀ path ∈ FileEfun.pathArgs .stat args, Usual path) →
        driver.stat args = driver.ungated.stat args) ↔
      ¬ RefusesRoot driver (FileEfun.checked .stat args) := by
  have source : argString (args.take 2) 0 = argString args 0 := by
    unfold argString
    rw [List.getElem?_take_of_lt (by decide)]
  have flags : optionalInt (args.take 2) 1 = optionalInt args 1 := by
    unfold optionalInt
    rw [List.getElem?_take_of_lt (by decide)]
  cases first : argString args 0 with
  | none =>
      refine iff_of_true (fun _ => by unfold stat; rw [first]) fun refuses => ?_
      unfold FileEfun.checked at refuses
      rw [first] at refuses
      cases option : optionalInt args 1 with
      | none => rw [option] at refuses; cases refuses.2.1
      | some flags => rw [option] at refuses; cases refuses.2.1
  | some path =>
      rw [stat_eq_iff args first]
      have paths : FileEfun.pathArgs .stat args = FileEfun.pathArgs .getDir (args.take 2) :=
        (congrArg Option.toList source).symm
      have same : FileEfun.checked .stat args = FileEfun.checked .getDir (args.take 2) := by
        unfold FileEfun.checked
        dsimp only
        rw [source, flags]
      rw [paths, same]
      exact (gated_getDir (args.take 2)).serves_iff permissive

theorem serves_rename {driver : FileDriver} (permissive : driver.Permissive) :
    ((∀ path ∈ FileEfun.pathArgs .rename args, Usual path) →
        driver.rename args = driver.ungated.rename args) ↔
      ¬ RefusesRoot driver (FileEfun.pairArgs args) := by
  have none_ : ¬ RefusesRoot driver [] := fun refuses => by cases refuses.2.1
  unfold FileEfun.pathArgs FileEfun.pairArgs rename
  dsimp only
  cases argString args 0 with
  | none => exact iff_of_true (fun _ => rfl) none_
  | some source =>
      cases argString args 1 with
      | none => exact iff_of_true (fun _ => rfl) none_
      | some target =>
          dsimp only [Option.toList_some, List.singleton_append]
          rw [ungated_gated, ungated_gated]
          constructor
          · intro serves refuses
            have same := serves refuses.2.2
            by_cases root : source = [slash]
            · rw [root, gated_of_illegal permissive refuses.1 (not_legal_root refuses.1)] at same
              cases same
            · have passes : driver.gate.legal (checkPath source) = true :=
                legal_of_usual (refuses.2.2 source List.mem_cons_self) (.inr root)
              have last : target = [slash] := by
                rcases List.mem_cons.mp refuses.2.1 with here | later
                · exact absurd here.symm root
                · exact (List.mem_singleton.mp later).symm
              rw [gated_of_legal permissive passes, last,
                gated_of_illegal permissive refuses.1 (not_legal_root refuses.1)] at same
              cases same
          · intro serves usual
            have passes := served_of_not_refusesRoot usual serves List.mem_cons_self
            have passes' := served_of_not_refusesRoot usual serves
              (List.mem_cons_of_mem _ List.mem_cons_self)
            rw [gated_of_legal permissive passes, gated_of_legal permissive passes']

end FileDriver

namespace FileEfun

variable {driver : FileDriver}

/-- A call serves its paths unless the gate of FluffOS leaves the root out. -/
theorem serves_iff (permissive : driver.Permissive) (efun : FileEfun) (args : List SaveValue) :
    ((∀ path ∈ efun.pathArgs args, Usual path) → ¬ efun.Refuses driver args) ↔
      ¬ RefusesRoot driver (efun.checked args) := by
  unfold Refuses
  rw [not_ne_iff]
  have free : ¬ RefusesRoot driver [] := fun refuses => by cases refuses.2.1
  cases efun with
  | readFile => exact (FileDriver.gated_readFile args).serves_iff permissive
  | writeFile => exact (FileDriver.gated_writeFile args).serves_iff permissive
  | fileSize => exact iff_of_true (fun _ => rfl) free
  | fileLength => exact iff_of_true (fun _ => rfl) free
  | getDir => exact (FileDriver.gated_getDir args).serves_iff permissive
  | rm => exact (FileDriver.gated_rm args).serves_iff permissive
  | mkdir => exact (FileDriver.gated_mkdir args).serves_iff permissive
  | rmdir => exact (FileDriver.gated_rmdir args).serves_iff permissive
  | rename => exact FileDriver.serves_rename args permissive
  | cp => exact iff_of_true (fun _ => rfl) free
  | stat => exact FileDriver.serves_stat args permissive
  | link => exact iff_of_true (fun _ => rfl) free
  | readBytes => exact (FileDriver.gated_readBytes args).serves_iff permissive
  | writeBytes => exact (FileDriver.gated_writeBytes args).serves_iff permissive
  | readBuffer => exact (FileDriver.gated_readBuffer args).serves_iff permissive
  | writeBuffer => exact (FileDriver.gated_writeBuffer args).serves_iff permissive
  | saveObject => exact (FileDriver.gated_object args).1.serves_iff permissive
  | restoreObject => exact (FileDriver.gated_object args).2.serves_iff permissive

/-- With a master that allows everything, a call keeps inside the mudlib and serves it exactly
when no path that is not checked leaves the mudlib and, in FluffOS, the gate is not asked
about the root. -/
theorem keepsInside_iff (efun : FileEfun) (driver : FileDriver) (args : List SaveValue)
    (permissive : driver.Permissive) :
    efun.KeepsInside driver args ↔
      (∀ path ∈ efun.unchecked args, parentDir ∉ components (cString (normalized path))) ∧
        ¬ RefusesRoot driver (efun.checked args) := by
  rw [← stays_iff permissive, ← serves_iff permissive]
  exact ⟨fun keeps => ⟨keeps.1, keeps.2⟩, fun both => ⟨both.1, both.2⟩⟩

/-- A driver whose master answers 1, with nothing but a mudlib. -/
def openDriverAt (ldmud : Bool) : FileDriver where
  gate := { ldmud := ldmud, caller := none, master := some fun _ _ _ => .ok (.int 1) }
  mudlibRoot := str "lib"
  currentObject := none
  fnmatch := fun _ _ => false
  fuel := 0

/-- `read_file("/d/x")` keeps inside. -/
theorem readFile_keepsInside :
    readFile.KeepsInside (openDriverAt false) [.string (str "/d/x")] := by
  apply (keepsInside_iff readFile (openDriverAt false) [.string (str "/d/x")] rfl).mpr
  constructor
  · intro path member
    cases member
  · rintro ⟨-, root, -⟩
    exact absurd root (by decide)

/-- `file_size("/../x")` asks about a file outside the mudlib. -/
theorem fileSize_leaves :
    ¬ ∀ (efun : FileEfun) (driver : FileDriver) (args : List SaveValue),
      driver.Permissive → efun.KeepsInside driver args := by
  intro claimed
  have keeps := claimed fileSize (openDriverAt false) [.string (str "/../x")] rfl
  rcases keeps.inside.1 _ List.mem_cons_self with ⟨behind, same, clean⟩
  have parts : behind = str "/../x" := (List.append_cancel_left same).symm
  rw [parts] at clean
  exact clean (by decide)

end FileEfun

end Kjdmud.Efun
