import Kjdmud.Efun.FileEfuns.Paths

/-!
# The file efuns stay inside the mudlib

An efun that takes its path through the gate stays inside; `file_size`, `file_length`,
`stat`, `link` and `cp` hand their paths over unchecked.  No path that is to be served is
refused, but for the root of the mudlib, which the gate of FluffOS leaves out.
-/

namespace Kjdmud.Efun

open SaveVariable (SaveValue)
open FileProgram

/-- Every path that the call hands over is inside the mudlib. -/
def OsCall.Inside (mudlibRoot : Str) (call : OsCall) : Prop :=
  ∀ path ∈ call.paths, Efun.Inside mudlibRoot path

theorem OsCall.inside_one {mudlibRoot path : Str} {call : OsCall} (one : call.paths = [path]) :
    call.Inside mudlibRoot ↔ Efun.Inside mudlibRoot path := by
  rw [OsCall.Inside, one]
  exact List.forall_mem_singleton

theorem OsCall.inside_write {mudlibRoot : Str} (offset : Option Int64) (data : Str) :
    (OsCall.write offset data).Inside mudlibRoot := by
  intro path member
  cases member

/-- Every path that an efun can hand over is inside. -/
def FileProgram.Stays (mudlibRoot : Str) (program : FileProgram) : Prop :=
  program.Every (OsCall.Inside mudlibRoot)

namespace FileDriver

/-- The driver with no master, so with no gate. -/
def ungated (driver : FileDriver) : FileDriver :=
  { driver with gate := { driver.gate with master := none } }

/-- The master answers 1 to `valid_read` and to `valid_write`. -/
def Permissive (driver : FileDriver) : Prop :=
  driver.gate.master = some fun _ _ _ => .ok (.int 1)

/-! ## One path through the gate -/

theorem ungated_gated (driver : FileDriver) (rawPath funcName : Str) (writeFlag : Bool)
    (refused : FileProgram) (body : Str → FileProgram) :
    driver.ungated.gated rawPath writeFlag funcName refused body =
      body (driver.resolve rawPath) :=
  rfl

/-- What is legal passes the gate as it is. -/
theorem gated_of_legal {driver : FileDriver} (permissive : driver.Permissive)
    {rawPath funcName : Str} {writeFlag : Bool} {refused : FileProgram}
    {body : Str → FileProgram} (legal : driver.gate.legal (checkPath rawPath) = true) :
    driver.gated rawPath writeFlag funcName refused body = body (driver.resolve rawPath) := by
  rw [gated, Gate.checkValidPath_of_legal permissive rfl rfl legal]

/-- What is not is refused in FluffOS. -/
theorem gated_of_illegal {driver : FileDriver} (permissive : driver.Permissive)
    {rawPath funcName : Str} {writeFlag : Bool} {refused : FileProgram}
    {body : Str → FileProgram} (fluffos : driver.gate.ldmud = false)
    (illegal : driver.gate.legal (checkPath rawPath) = false) :
    driver.gated rawPath writeFlag funcName refused body = refused := by
  have denied : driver.gate.checkValidPath rawPath writeFlag funcName = .ok none := by
    unfold Gate.checkValidPath
    rw [permissive]
    dsimp only
    rw [show allowed (.int 1) rawPath = some rawPath from rfl]
    dsimp only
    rw [if_neg (by rw [illegal]; exact Bool.false_ne_true),
      if_neg (by rw [fluffos]; exact Bool.false_ne_true)]
  rw [gated, denied]

/-- Behind the gate a program stays inside when it does on every path inside. -/
theorem stays_gated {driver : FileDriver} (permissive : driver.Permissive)
    {rawPath funcName : Str} {writeFlag : Bool} {refused : FileProgram}
    {body : Str → FileProgram} (refuses : refused.Stays driver.mudlibRoot)
    (serves : ∀ path, Inside driver.mudlibRoot (driver.resolve path) →
      (body (driver.resolve path)).Stays driver.mudlibRoot) :
    (driver.gated rawPath writeFlag funcName refused body).Stays driver.mudlibRoot := by
  unfold gated
  split
  · exact Asking.every_done _
  · exact refuses
  · rename_i path returned
    have legal := Gate.legal_of_checkValidPath permissive returned
    exact serves path (inside_append_iff.mpr (confined_of_legal legal).parentless)

end FileDriver

/-! ## Single questions -/

section Questions

variable {mudlibRoot file : Str}

theorem FileProgram.stays_done (result : Option (Except RestoreError SaveValue)) :
    Stays mudlibRoot (.done result) :=
  Asking.every_done _

theorem FileProgram.stays_ask {call : OsCall} {next : call.Answer → FileProgram}
    (one : call.paths = [file]) :
    Stays mudlibRoot (.ask call next) ↔
      Inside mudlibRoot file ∧ ∀ answer, (next answer).Stays mudlibRoot :=
  and_congr_left' (OsCall.inside_one one)

theorem FileProgram.stays_write {offset : Option Int64} {data : Str}
    {next : Bool → FileProgram} (later : ∀ ok, (next ok).Stays mudlibRoot) :
    Stays mudlibRoot (.ask (.write offset data) next) :=
  ⟨OsCall.inside_write offset data, later⟩

/-- A call whose answer decides the result. -/
theorem FileProgram.stays_last {call : OsCall} {next : call.Answer → FileProgram}
    (inside : Inside mudlibRoot file) (one : call.paths = [file])
    (ends : ∀ answer, ∃ result, next answer = .done result) :
    Stays mudlibRoot (.ask call next) := by
  refine (stays_ask one).mpr ⟨inside, fun answer => ?_⟩
  rcases ends answer with ⟨result, same⟩
  rw [same]
  exact stays_done result

end Questions

/-! ## Behind the gate -/

namespace FileDriver

variable {driver : FileDriver} {mudlibRoot : Str}

theorem stays_readWindow (start len : Int64) (f : OpenFile) (result : Str → SaveValue) :
    (readWindow start len f result).Stays mudlibRoot := by
  unfold readWindow
  extract_lets start len len data
  split
  · exact stays_done _
  · split
    · exact stays_done _
    · exact stays_done _

theorem stays_updateAt (start : Int64) (data : Str) (size : Int64) :
    (updateAt start data size).Stays mudlibRoot := by
  unfold updateAt
  extract_lets start
  split
  · exact stays_done _
  · exact stays_write fun ok => stays_done _

theorem stays_update {file : Str} (inside : Inside mudlibRoot file) (start : Int64)
    (data : Str) : (update file start data).Stays mudlibRoot := by
  refine (stays_ask rfl).mpr ⟨inside, fun size => ?_⟩
  split
  · exact stays_updateAt start data _
  · refine (stays_ask rfl).mpr ⟨inside, fun created => ?_⟩
    split
    · refine (stays_ask rfl).mpr ⟨inside, fun size => ?_⟩
      split
      · exact stays_updateAt start data _
      · exact stays_done _
    · exact stays_done _

theorem stays_readFile (permissive : driver.Permissive) (args : List SaveValue) :
    (driver.readFile args).Stays driver.mudlibRoot := by
  unfold readFile
  split
  · exact stays_done _
  · extract_lets start start numLines
    split
    · exact stays_done _
    · refine stays_gated permissive (stays_done _) fun path inside => ?_
      refine (stays_ask rfl).mpr ⟨inside, fun st => ?_⟩
      split
      · exact stays_done _
      · refine (stays_ask rfl).mpr ⟨inside, fun f => ?_⟩
        split
        · exact stays_done _
        · split
          · exact stays_done _
          · exact stays_done _

theorem stays_readBytes (permissive : driver.Permissive) (args : List SaveValue) :
    (driver.readBytes args).Stays driver.mudlibRoot := by
  unfold readBytes
  split
  · exact stays_done _
  · refine stays_gated permissive (stays_done _) fun path inside => ?_
    extract_lets start len
    split
    · exact stays_done _
    · refine (stays_ask rfl).mpr ⟨inside, fun f => ?_⟩
      split
      · exact stays_done _
      · exact stays_readWindow _ _ _ _

theorem stays_readBuffer (permissive : driver.Permissive) (args : List SaveValue) :
    (driver.readBuffer args).Stays driver.mudlibRoot := by
  unfold readBuffer
  split
  · exact stays_done _
  · split
    · exact stays_done _
    · exact stays_done _
    · split
      · exact stays_done _
      · refine stays_gated permissive (stays_done _) fun path inside => ?_
        split
        · exact stays_done _
        · refine (stays_ask rfl).mpr ⟨inside, fun f => ?_⟩
          split
          · exact stays_done _
          · exact stays_readWindow _ _ _ _

theorem stays_writeFile (permissive : driver.Permissive) (args : List SaveValue) :
    (driver.writeFile args).Stays driver.mudlibRoot := by
  unfold writeFile
  split
  · refine stays_gated permissive (stays_done _) fun path inside => ?_
    refine (stays_ask rfl).mpr ⟨inside, fun ok => ?_⟩
    split
    · exact stays_write fun ok => stays_done _
    · exact stays_done _
  · exact stays_done _

theorem stays_writeBytes (permissive : driver.Permissive) (args : List SaveValue) :
    (driver.writeBytes args).Stays driver.mudlibRoot := by
  unfold writeBytes
  split
  · exact stays_gated permissive (stays_done _) fun path inside => stays_update inside _ _
  · exact stays_done _

theorem stays_writeBuffer (permissive : driver.Permissive) (args : List SaveValue) :
    (driver.writeBuffer args).Stays driver.mudlibRoot := by
  unfold writeBuffer
  split
  · split
    · exact stays_gated permissive (stays_done _) fun path inside => stays_update inside _ _
    · exact stays_done _
  · exact stays_done _
  · exact stays_done _

/-- The entry of a file inside asks about that file only. -/
theorem every_makeEntry {full : Str} (wantStat : Bool) (name : Str)
    (inside : Inside mudlibRoot full) :
    (makeEntry wantStat name full).Every (OsCall.Inside mudlibRoot) := by
  unfold makeEntry
  split
  · exact ⟨(OsCall.inside_one rfl).mpr inside, fun st => Asking.every_done _⟩
  · exact Asking.every_done _

theorem stays_listDir {directory : Str} (wantStat : Bool) (picks : Str → Bool)
    (inside : Inside mudlibRoot directory) :
    (listDir wantStat directory picks).Stays mudlibRoot := by
  refine (stays_ask rfl).mpr ⟨inside, fun names => ?_⟩
  split
  · exact stays_done _
  · apply Asking.Every.bind
    · apply Asking.Every.forEach
      intro name member
      have picked := (List.mem_filter.mp member).2
      have other : name.1 ≠ parentDir := by
        intro parent
        simp [parent, parentDir] at picked
      exact every_makeEntry wantStat name.1 (inside.entry name.2.1 name.2.2 other)
    · intro entries
      exact stays_done _

theorem stays_getDir (permissive : driver.Permissive) (args : List SaveValue) :
    (driver.getDir args).Stays driver.mudlibRoot := by
  unfold getDir
  split
  · exact stays_done _
  · split
    · exact stays_done _
    · extract_lets wantStat
      refine stays_gated permissive (stays_done _) fun path inside => ?_
      extract_lets dirPart lastComponent
      split
      · have above : Inside driver.mudlibRoot dirPart := inside_dirPart inside
        refine (stays_ask rfl).mpr ⟨above, fun st => ?_⟩
        split
        · exact stays_listDir wantStat _ above
        · exact stays_done _
      · refine (stays_ask rfl).mpr ⟨inside, fun st => ?_⟩
        split
        · exact stays_done _
        · split
          · exact stays_listDir wantStat _ inside
          · exact (every_makeEntry wantStat lastComponent inside).bind fun entry =>
              stays_done _

theorem stays_rm (permissive : driver.Permissive) (args : List SaveValue) :
    (driver.rm args).Stays driver.mudlibRoot := by
  unfold rm
  split
  · exact stays_done _
  · exact stays_gated permissive (stays_done _) fun path inside =>
      stays_last inside rfl fun ok => ⟨_, rfl⟩

theorem stays_mkdir (permissive : driver.Permissive) (args : List SaveValue) :
    (driver.mkdir args).Stays driver.mudlibRoot := by
  unfold mkdir
  split
  · exact stays_done _
  · exact stays_gated permissive (stays_done _) fun path inside =>
      stays_last inside rfl fun ok => ⟨_, rfl⟩

theorem stays_rmdir (permissive : driver.Permissive) (args : List SaveValue) :
    (driver.rmdir args).Stays driver.mudlibRoot := by
  unfold rmdir
  split
  · exact stays_done _
  · exact stays_gated permissive (stays_done _) fun path inside =>
      stays_last inside rfl fun ok => ⟨_, rfl⟩

theorem stays_rename (permissive : driver.Permissive) (args : List SaveValue) :
    (driver.rename args).Stays driver.mudlibRoot := by
  unfold rename
  split
  · refine stays_gated permissive (stays_done _) fun source inside => ?_
    refine stays_gated permissive (stays_done _) fun target inside' => ?_
    refine ⟨?_, fun ok => stays_done _⟩
    intro path member
    rcases List.mem_cons.mp member with rfl | last
    · exact inside
    · exact List.mem_singleton.mp last ▸ inside'
  · exact stays_done _

theorem stays_saveObject (permissive : driver.Permissive) (args : List SaveValue) :
    (driver.saveObject args).Stays driver.mudlibRoot := by
  unfold saveObject
  split
  · exact stays_done _
  · split
    · exact stays_done _
    · refine stays_gated permissive (stays_done _) fun path inside => ?_
      refine (stays_ask rfl).mpr ⟨inside, fun ok => ?_⟩
      split
      · exact stays_write fun ok => stays_done _
      · exact stays_done _

theorem stays_restoreObject (permissive : driver.Permissive) (args : List SaveValue) :
    (driver.restoreObject args).Stays driver.mudlibRoot := by
  unfold restoreObject
  split
  · exact stays_done _
  · split
    · exact stays_done _
    · refine stays_gated permissive (stays_done _) fun path inside => ?_
      refine (stays_ask rfl).mpr ⟨inside, fun f => ?_⟩
      split
      · exact stays_done _
      · exact stays_done _

end FileDriver

end Kjdmud.Efun
