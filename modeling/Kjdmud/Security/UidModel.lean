import Kjdmud.Core.Types
import Mathlib.Logic.Function.Basic

/-!
# Object identities

The uid and euid of objects: `resolveObjectUids` of `src/security/UidModel.cpp`,
`captureBootUids`, `assignObjectUid` and `cloneObject` of the object manager, and the efuns
`seteuid` and `export_uid`.  LPC code runs in every apply of the master on the way, so a run
is taken apart there.
-/

namespace Kjdmud.Security

structure UidModel where
  rootUid : Option Str := none
  backboneUid : Option Str := none
  autoTrustBackbone : Bool := false

def UidModel.active (model : UidModel) : Bool :=
  model.rootUid.isSome

structure ResolvedObjectUids where
  uid : Str
  euid : Option Str

def resolveObjectUids (model : UidModel) (creatorName : Str) (loaderUid loaderEuid : Option Str) :
    ResolvedObjectUids :=
  if loaderUid = some creatorName then ⟨creatorName, loaderEuid⟩
  else
    match loaderEuid with
    | some euid =>
        if model.autoTrustBackbone ∧ model.backboneUid = some creatorName then ⟨euid, some euid⟩
        else ⟨creatorName, none⟩
    | none => ⟨creatorName, none⟩

/-! ## States -/

/-- What an apply of the master returns, or that it throws. -/
inductive Answer
  | throws (message : Str)
  | nothing
  | int (n : Int)
  | string (s : Str)
  | other
deriving DecidableEq

/-- What the driver is in the middle of; the last object is the current one, if there is one. -/
inductive Frame
  /-- `privs_file` for an object that is constructed. -/
  | privsFile (obj : ObjectId) (filename : Str) (loader : Option ObjectId)
  | creatorFile (obj : ObjectId) (filename : Str) (loader : Option ObjectId)
  | validSeteuid (caller : ObjectId) (s : Str)

/-- How far `loadMasterObject` has come. -/
inductive Boot
  /-- The master object is not there yet. -/
  | loading
  | getRootUid
  | getMasterUid
  | getBbUid (rootStr : Str)
  | done
deriving DecidableEq

/-- A record of what the master answered. -/
inductive Source
  /-- `creator_file` returned a string for a path. -/
  | creatorFile (slashPath creatorName : Str)
  /-- What `valid_seteuid` answered about a string. -/
  | validSeteuid (s : Str) (answer : Answer)
  /-- `seteuid` asked nobody; whether there was a live master. -/
  | unasked (s : Str) (master : Bool)

/-- What the mudlib's master defines, and what its configuration says. -/
structure Mudlib where
  creatorFile : Bool
  validSeteuid : Bool
  autoTrustBackbone : Bool

structure State where
  model : UidModel := {}
  boot : Boot := .loading
  master : Option ObjectId := none
  next : ObjectId := 0
  /-- The file that an object was loaded or cloned from. -/
  filename : ObjectId → Str := fun _ => []
  uid : ObjectId → Option Str := fun _ => none
  euid : ObjectId → Option Str := fun _ => none
  destructed : ObjectId → Bool := fun _ => false
  stack : List Frame := []
  /-- Every answer so far. -/
  log : List Source := []

namespace State

def setUid (s : State) (obj : ObjectId) (uid : Option Str) : State :=
  { s with uid := Function.update s.uid obj uid }

def setEuid (s : State) (obj : ObjectId) (euid : Option Str) : State :=
  { s with euid := Function.update s.euid obj euid }

def record (s : State) (source : Source) : State :=
  { s with log := source :: s.log }

def push (s : State) (frame : Frame) : State :=
  { s with stack := frame :: s.stack }

/-- There is a master, and it is not destructed. -/
def liveMaster (s : State) : Bool :=
  s.master.any fun master => !s.destructed master

/-- `functionExists` on the master. -/
def masterDefines (s : State) (defines : Bool) : Bool :=
  s.liveMaster && defines

/-! ## Loading and cloning -/

/-- A new object, without identities. -/
def construct (s : State) (filename : Str) : State :=
  { s with
    next := s.next + 1
    filename := Function.update s.filename s.next filename
    uid := Function.update s.uid s.next none
    euid := Function.update s.euid s.next none
    destructed := Function.update s.destructed s.next false }

/-- The path that `creator_file` is asked about. -/
def slashPath (filename : Str) : Str :=
  if filename = [] ∨ filename.head? = some 0x2f then filename else 0x2f :: filename

/-- `assignObjectUid` up to the call of `creator_file`. -/
def askCreator (mudlib : Mudlib) (s : State) (obj : ObjectId) (filename : Str)
    (loader : Option ObjectId) : State :=
  if !s.model.active then s
  else if s.masterDefines mudlib.creatorFile then s.push (.creatorFile obj filename loader)
  else s.setUid obj s.model.rootUid

/-- The uid or euid of the loader; the root uid where the driver loads. -/
def ofLoader (s : State) (ids : ObjectId → Option Str) : Option ObjectId → Option Str
  | some caller => ids caller
  | none => s.model.rootUid

/-- `assignObjectUid` behind the call of `creator_file`. -/
def assignObjectUid (s : State) (obj : ObjectId) (filename : Str) (loader : Option ObjectId) :
    Answer → State
  | .string creatorName =>
      let r := resolveObjectUids s.model creatorName (s.ofLoader s.uid loader)
        (s.ofLoader s.euid loader)
      let s := s.record (.creatorFile (slashPath filename) creatorName)
      (s.setUid obj (some r.uid)).setEuid obj r.euid
  | _ => s.setUid obj s.model.rootUid

/-- The construction of an object in `loadObject` and `cloneObject`, up to the apply
`privs_file`; without a master there is nobody to ask. -/
def begin (s : State) (filename : Str) (loader : Option ObjectId) : State :=
  let obj := s.next
  let s := s.construct filename
  if s.master.isSome then s.push (.privsFile obj filename loader) else s

/-! ## Efuns -/

/-- What an efun returns or throws. -/
inductive Result
  | int (n : Int)
  | error (message : Str)

/-- The call was denied, or it failed. -/
def Result.refused : Result → Bool
  | .int n => n = 0
  | .error _ => true

/-- The argument of `seteuid`. -/
inductive Arg
  | missing
  | int (n : Int)
  | string (s : Str)
  | other
deriving DecidableEq

/-- The efun `seteuid`, up to the call of `valid_seteuid` if it is called. -/
def seteuid (mudlib : Mudlib) (s : State) (caller : Option ObjectId) (arg : Arg) :
    State × Option Result :=
  if arg = .missing then (s, some (.error (str "seteuid: expected 1 argument")))
  else
    match caller with
    | none => (s, some (.error (str "seteuid: no current object")))
    | some caller =>
        match arg with
        | .int n =>
            if n ≠ 0 then
              (s, some (.error (str "seteuid: bad argument 1 (a nonzero int)")))
            else (s.setEuid caller none, some (.int 1))
        | .string str_ =>
            if s.masterDefines mudlib.validSeteuid then (s.push (.validSeteuid caller str_), none)
            else
              ((s.record (.unasked str_ s.liveMaster)).setEuid caller (some str_),
                some (.int 1))
        | _ => (s, some (.error (str "seteuid: argument must be a string or 0")))

/-- Whether `seteuid` goes on. -/
def approves : Answer → Bool
  | .int n => n ≠ 0
  | .nothing => false
  | _ => true

/-- The end of `seteuid`, with the answer on record; an error of the apply goes through. -/
def seteuidReturns (s : State) (caller : ObjectId) (str_ : Str) (answer : Answer) :
    State × Result :=
  let s := s.record (.validSeteuid str_ answer)
  match answer with
  | .throws message => (s, .error message)
  | answer =>
      if approves answer then (s.setEuid caller (some str_), .int 1) else (s, .int 0)

/-- The efun `export_uid`; a target that is no object is `none`. -/
def exportUid (s : State) (caller : Option ObjectId) (target : Option ObjectId) :
    State × Result :=
  match target with
  | none => (s, .error (str "export_uid: expected an object first argument"))
  | some target =>
      match caller.bind s.euid with
      | none => (s, .error (str "export_uid: Illegal to export uid 0"))
      | some euid =>
          if (s.euid target).isSome then (s, .int 0) else (s.setUid target (some euid), .int 1)

/-- `cloneObject` of a program that compiles, up to the apply `privs_file`. -/
def cloneObject (s : State) (filename : Str) (caller : Option ObjectId) :
    State × Option Result :=
  if s.model.active && caller.any fun caller => (s.euid caller).isNone then
    (s, some (.error
      (str "Object must call seteuid() prior to calling clone_object().\n")))
  else (s.begin filename caller, none)

/-! ## Boot -/

/-- `captureBootUids` behind an answer to `get_root_uid` or `get_master_uid`. -/
def rootAnswered (s : State) : Answer → State
  | .string rootStr =>
      if rootStr = [] then { s with boot := .done }
      else { s with model := { s.model with rootUid := some rootStr }, boot := .getBbUid rootStr }
  | _ => { s with boot := .done }

/-- The end of `captureBootUids`. -/
def bbAnswered (mudlib : Mudlib) (s : State) (rootStr : Str) (answer : Answer) : State :=
  let backboneUid :=
    match answer with
    | .string bb => if bb = [] then s.model.backboneUid else some bb
    | _ => s.model.backboneUid
  let s := { s with
    model := { s.model with backboneUid, autoTrustBackbone := mudlib.autoTrustBackbone }
    boot := .done }
  match s.master with
  | some master => (s.setUid master (some rootStr)).setEuid master (some rootStr)
  | none => s

/-! ## Runs -/

/-- What can happen next. -/
inductive Op
  /-- A file that is not loaded is loaded, or an object cloned; `none` is the driver. -/
  | load (filename : Str) (loader : Option ObjectId)
  | clone (filename : Str) (caller : Option ObjectId)
  | privsFileReturns
  | creatorFileReturns (answer : Answer)
  | seteuid (caller : Option ObjectId) (arg : Arg)
  | validSeteuidReturns (answer : Answer)
  | exportUid (caller target : Option ObjectId)
  | destruct (obj : ObjectId)
  /-- `master_ = loadObject(...)` in `loadMasterObject`. -/
  | masterLoaded (obj : ObjectId)
  | bootAnswers (answer : Answer)

/-- Objects that are named exist. -/
def known (s : State) (ob : Option ObjectId) : Bool :=
  ob.all fun ob => ob < s.next

/-- Execute one operation, with what an efun returns if it ends here; `none` where it cannot
happen. -/
def run (mudlib : Mudlib) (s : State) : Op → Option (State × Option Result)
  | .load filename loader =>
      if s.known loader then some (s.begin filename loader, none) else none
  | .clone filename caller =>
      if s.known caller then some (s.cloneObject filename caller) else none
  | .privsFileReturns =>
      match s.stack with
      | .privsFile obj filename loader :: stack =>
          some (askCreator mudlib { s with stack := stack } obj filename loader, none)
      | _ => none
  | .creatorFileReturns answer =>
      match s.stack with
      | .creatorFile obj filename loader :: stack =>
          some (assignObjectUid { s with stack := stack } obj filename loader answer, none)
      | _ => none
  | .seteuid caller arg =>
      if s.known caller then some (s.seteuid mudlib caller arg) else none
  | .validSeteuidReturns answer =>
      match s.stack with
      | .validSeteuid caller str_ :: stack =>
          let answered := seteuidReturns { s with stack := stack } caller str_ answer
          some (answered.1, some answered.2)
      | _ => none
  | .exportUid caller target =>
      if s.known caller && s.known target then
        some ((s.exportUid caller target).1, some (s.exportUid caller target).2)
      else none
  | .destruct obj =>
      some ({ s with destructed := Function.update s.destructed obj true }, none)
  | .masterLoaded obj =>
      if s.boot = .loading ∧ s.stack = [] ∧ obj < s.next then
        some ({ s with master := some obj, boot := .getRootUid }, none)
      else none
  | .bootAnswers answer =>
      if s.stack = [] then
        match s.boot with
        | .getRootUid =>
            if answer = .nothing then some ({ s with boot := .getMasterUid }, none)
            else some (s.rootAnswered answer, none)
        | .getMasterUid => some (s.rootAnswered answer, none)
        | .getBbUid rootStr => some (bbAnswered mudlib s rootStr answer, none)
        | _ => none
      else none

/-- The state after some operations, if they can happen. -/
def after (mudlib : Mudlib) (s : State) : List Op → Option State
  | [] => some s
  | op :: ops => (s.run mudlib op).bind fun result => result.1.after mudlib ops

/-! ## Where identities come from -/

/-- An apply returned other than the integer 0 or nothing. -/
def Affirms (answer : Answer) : Prop :=
  answer ≠ .int 0 ∧ answer ≠ .nothing ∧ ∀ message, answer ≠ .throws message

/-- `valid_seteuid` answered other than the integer 0 or nothing about a string. -/
def Affirmed (s : State) (name : Str) : Prop :=
  ∃ answer, .validSeteuid name answer ∈ s.log ∧ Affirms answer

/-- The root uid, a string for which `valid_seteuid` answered other than the integer 0 or
nothing, or one that was set while there was no live master to ask. -/
def Granted (s : State) (name : Str) : Prop :=
  s.model.rootUid = some name ∨ s.Affirmed name ∨ .unasked name false ∈ s.log

/-- Every identity has a source. -/
structure Provenance (s : State) : Prop where
  euid : ∀ obj name, s.euid obj = some name → s.Granted name
  uid : ∀ obj name, s.uid obj = some name →
    s.model.rootUid = some name ∨
      .creatorFile (slashPath (s.filename obj)) name ∈ s.log ∨ s.Granted name

/-- A call that is denied or that fails changes no identity, and an object without an euid clones
nothing. -/
structure Restrained (mudlib : Mudlib) (s : State) : Prop where
  denied : ∀ answer s' result, s.run mudlib (.validSeteuidReturns answer) = some (s', result) →
    ¬ Affirms answer → s'.uid = s.uid ∧ s'.euid = s.euid
  refused : ∀ op s' result, s.run mudlib op = some (s', some result) → result.refused = true →
    s'.uid = s.uid ∧ s'.euid = s.euid
  clones : ∀ filename caller s' result, s.model.active = true → s.euid caller = none →
    s.run mudlib (.clone filename (some caller)) = some (s', result) →
      s' = s ∧ ∃ message, result = some (.error message)

end State

end Kjdmud.Security
