import Kjdmud.Security.UidModel

/-!
# Where identities come from

Every uid and every euid of a run has a source: the root uid, an answer of the master, or a
call of `seteuid` while there was no live master to ask.
-/

namespace Kjdmud.Security

/-- An identity that a resolution hands out is the loader's, or the creator's name. -/
theorem resolveObjectUids_cases (model : UidModel) (creatorName : Str)
    (loaderUid loaderEuid : Option Str) :
    let r := resolveObjectUids model creatorName loaderUid loaderEuid
    (r.uid = creatorName ∨ loaderEuid = some r.uid) ∧ (r.euid = none ∨ r.euid = loaderEuid) := by
  unfold resolveObjectUids
  by_cases own : loaderUid = some creatorName
  · rw [if_pos own]
    exact ⟨.inl rfl, .inr rfl⟩
  · rw [if_neg own]
    cases loaderEuid with
    | none => exact ⟨.inl rfl, .inl rfl⟩
    | some euid =>
        by_cases backbone : model.autoTrustBackbone ∧ model.backboneUid = some creatorName
        · dsimp only
          rw [if_pos backbone]
          exact ⟨.inr rfl, .inr rfl⟩
        · dsimp only
          rw [if_neg backbone]
          exact ⟨.inl rfl, .inl rfl⟩

namespace State

/-- A frame remembers the file that its object was made from. -/
def Frame.Remembers (s : State) : Frame → Prop
  | .privsFile obj filename _ => s.filename obj = filename ∧ obj < s.next
  | .creatorFile obj filename _ => s.filename obj = filename ∧ obj < s.next
  | .validSeteuid _ _ => True

/-- A source for the uid of an object. -/
def Owned (s : State) (obj : ObjectId) (name : Str) : Prop :=
  .creatorFile (slashPath (s.filename obj)) name ∈ s.log ∨ s.Granted name

/-- Every identity has a source, and the root uid is set once. -/
structure Traced (s : State) : Prop where
  euid : ∀ {obj name}, s.euid obj = some name → s.Granted name
  uid : ∀ {obj name}, s.uid obj = some name → s.Owned obj name
  frames : ∀ frame ∈ s.stack, Frame.Remembers s frame
  unset : s.boot = .loading ∨ s.boot = .getRootUid ∨ s.boot = .getMasterUid →
    s.model.rootUid = none
  set : ∀ {rootStr}, s.boot = .getBbUid rootStr → s.model.rootUid = some rootStr

variable {s s' : State} {obj : ObjectId} {name : Str}

theorem granted_root (root : s.model.rootUid = some name) : s.Granted name :=
  .inl root

/-! ## Small changes -/

theorem Traced.setUid (traced : s.Traced) {uid : Option Str}
    (source : ∀ name ∈ uid, s.Owned obj name) : (s.setUid obj uid).Traced where
  euid here := traced.euid here
  uid {x name} here := by
    change Function.update s.uid obj uid x = some name at here
    by_cases same : x = obj
    · subst same
      rw [Function.update_self] at here
      exact source name here
    · rw [Function.update_of_ne same] at here
      exact traced.uid here
  frames := traced.frames
  unset := traced.unset
  set := traced.set

theorem Traced.setEuid (traced : s.Traced) {euid : Option Str}
    (source : ∀ name ∈ euid, s.Granted name) : (s.setEuid obj euid).Traced where
  euid {x name} here := by
    change Function.update s.euid obj euid x = some name at here
    by_cases same : x = obj
    · rw [same, Function.update_self] at here
      exact source name here
    · rw [Function.update_of_ne same] at here
      exact traced.euid here
  uid here := traced.uid here
  frames := traced.frames
  unset := traced.unset
  set := traced.set

theorem Affirmed.record (affirmed : s.Affirmed name) (source : Source) :
    (s.record source).Affirmed name := by
  obtain ⟨answer, logged, affirms⟩ := affirmed
  exact ⟨answer, List.mem_cons_of_mem _ logged, affirms⟩

theorem Granted.record (granted : s.Granted name) (source : Source) :
    (s.record source).Granted name :=
  granted.imp id (Or.imp (·.record source) (List.mem_cons_of_mem _))

theorem Owned.record (owned : s.Owned obj name) (source : Source) :
    (s.record source).Owned obj name :=
  owned.imp (List.mem_cons_of_mem _) (·.record source)

theorem Traced.record (traced : s.Traced) (source : Source) : (s.record source).Traced where
  euid here := (traced.euid here).record source
  uid here := (traced.uid here).record source
  frames := traced.frames
  unset := traced.unset
  set := traced.set

theorem Traced.push (traced : s.Traced) {frame : Frame} (remembers : Frame.Remembers s frame) :
    (s.push frame).Traced where
  euid here := traced.euid here
  uid here := traced.uid here
  frames other mem := by
    rcases List.mem_cons.mp mem with rfl | old
    · cases other <;> exact remembers
    · have before := traced.frames other old
      cases other <;> exact before
  unset := traced.unset
  set := traced.set

theorem Traced.pop (traced : s.Traced) {frame : Frame} {stack : List Frame}
    (here : s.stack = frame :: stack) : Traced { s with stack := stack } where
  euid here := traced.euid here
  uid here := traced.uid here
  frames other mem := by
    have before := traced.frames other (here ▸ List.mem_cons_of_mem frame mem)
    cases other <;> exact before
  unset := traced.unset
  set := traced.set

theorem Traced.construct (traced : s.Traced) (filename : Str) : (s.construct filename).Traced where
  euid {x name} here := by
    change Function.update s.euid s.next none x = some name at here
    by_cases fresh : x = s.next
    · rw [fresh, Function.update_self] at here
      cases here
    · rw [Function.update_of_ne fresh] at here
      exact traced.euid here
  uid {x name} here := by
    change Function.update s.uid s.next none x = some name at here
    by_cases fresh : x = s.next
    · rw [fresh, Function.update_self] at here
      cases here
    · rw [Function.update_of_ne fresh] at here
      have owned := traced.uid here
      have kept : (s.construct filename).filename x = s.filename x := Function.update_of_ne fresh _ _
      rw [Owned, kept]
      exact owned
  frames frame mem := by
    have before := traced.frames frame mem
    have kept {x : ObjectId} (old : x < s.next) :
        (s.construct filename).filename x = s.filename x :=
      Function.update_of_ne (Nat.ne_of_lt old) _ _
    cases frame with
    | privsFile x file loader =>
        exact ⟨(kept before.2).trans before.1, Nat.lt_succ_of_lt before.2⟩
    | creatorFile x file loader =>
        exact ⟨(kept before.2).trans before.1, Nat.lt_succ_of_lt before.2⟩
    | validSeteuid x str_ => trivial
  unset := traced.unset
  set := traced.set

/-! ## Loading and cloning -/

theorem Traced.begin (traced : s.Traced) (filename : Str) (loader : Option ObjectId) :
    (s.begin filename loader).Traced := by
  have constructed := traced.construct filename
  unfold State.begin
  dsimp only
  split
  · apply constructed.push
    exact ⟨Function.update_self _ _ _, Nat.lt_succ_self _⟩
  · exact constructed

theorem Traced.setRootUid (traced : s.Traced) (obj : ObjectId) :
    (s.setUid obj s.model.rootUid).Traced :=
  traced.setUid fun _ root => .inr (granted_root root)

theorem Traced.askCreator {mudlib : Mudlib} {filename : Str} {loader : Option ObjectId}
    (traced : s.Traced) (file : s.filename obj = filename) (old : obj < s.next) :
    (s.askCreator mudlib obj filename loader).Traced := by
  unfold State.askCreator
  split
  · exact traced
  · split
    · exact traced.push ⟨file, old⟩
    · exact traced.setRootUid obj

/-- What a loader has is granted, if it is an euid. -/
theorem Traced.ofLoader (traced : s.Traced) {loader : Option ObjectId}
    (here : s.ofLoader s.euid loader = some name) : s.Granted name := by
  cases loader with
  | none => exact granted_root here
  | some caller => exact traced.euid here

theorem Traced.assignObjectUid {filename : Str} {loader : Option ObjectId} (traced : s.Traced)
    (file : s.filename obj = filename) (answer : Answer) :
    (s.assignObjectUid obj filename loader answer).Traced := by
  cases answer with
  | string creatorName =>
      have cases := resolveObjectUids_cases s.model creatorName (s.ofLoader s.uid loader)
        (s.ofLoader s.euid loader)
      have recorded := traced.record (.creatorFile (slashPath filename) creatorName)
      rw [State.assignObjectUid]
      generalize resolveObjectUids s.model creatorName (s.ofLoader s.uid loader)
        (s.ofLoader s.euid loader) = r at cases
      have owned : ∀ name ∈ some r.uid,
          (s.record (.creatorFile (slashPath filename) creatorName)).Owned obj name := by
        rintro _ ⟨⟩
        rcases cases.1 with creator | loaders
        · left
          rw [creator]
          have same : (s.record (.creatorFile (slashPath filename) creatorName)).filename obj =
              filename := file
          rw [same]
          exact List.mem_cons_self
        · exact .inr ((traced.ofLoader loaders).record _)
      apply (recorded.setUid owned).setEuid
      intro name here
      rcases cases.2 with unset | loaders
      · rw [unset] at here
        cases here
      · rw [loaders] at here
        exact (traced.ofLoader here).record _
  | _ => exact traced.setRootUid obj

/-! ## Efuns -/

theorem Traced.seteuid {mudlib : Mudlib} (defined : mudlib.validSeteuid = true)
    (traced : s.Traced) (caller : Option ObjectId) (arg : Arg) :
    (s.seteuid mudlib caller arg).1.Traced := by
  unfold State.seteuid
  split
  · exact traced
  · cases caller with
    | none => exact traced
    | some caller =>
        cases arg with
        | int n =>
            dsimp only
            split
            · exact traced
            · exact traced.setEuid nofun
        | string str_ =>
            dsimp only
            by_cases asks : s.masterDefines mudlib.validSeteuid = true
            · rw [if_pos asks]
              exact traced.push trivial
            · rw [if_neg asks]
              have absent : s.liveMaster = false := by
                rw [masterDefines, defined, Bool.and_true] at asks
                exact Bool.eq_false_iff.mpr asks
              apply (traced.record _).setEuid
              rintro _ ⟨⟩
              rw [absent]
              exact .inr (.inr List.mem_cons_self)
        | missing => exact traced
        | other => exact traced

/-- `seteuid` goes on exactly where the apply returned other than the integer 0 or nothing. -/
theorem affirms_iff (answer : Answer) :
    Affirms answer ↔ (∀ message, answer ≠ .throws message) ∧ approves answer = true := by
  cases answer <;> simp [Affirms, approves]

theorem Traced.seteuidReturns (traced : s.Traced) (caller : ObjectId) (str_ : Str)
    (answer : Answer) : (s.seteuidReturns caller str_ answer).1.Traced := by
  have recorded := traced.record (.validSeteuid str_ answer)
  have approved (affirms : Affirms answer) :
      ((s.record (.validSeteuid str_ answer)).setEuid caller (some str_)).Traced := by
    apply recorded.setEuid
    rintro _ ⟨⟩
    exact .inr (.inl ⟨answer, List.mem_cons_self, affirms⟩)
  unfold State.seteuidReturns
  cases answer with
  | throws message => exact recorded
  | _ =>
      dsimp only
      split
      · next approves =>
          exact approved ((affirms_iff _).mpr ⟨fun _ => Answer.noConfusion, approves⟩)
      · exact recorded

theorem Traced.exportUid (traced : s.Traced) (caller target : Option ObjectId) :
    (s.exportUid caller target).1.Traced := by
  unfold State.exportUid
  cases target with
  | none => exact traced
  | some target =>
      cases here : caller.bind s.euid with
      | none => exact traced
      | some euid =>
          dsimp only
          split
          · exact traced
          · apply traced.setUid
            rintro _ ⟨⟩
            rcases Option.bind_eq_some_iff.mp here with ⟨caller, _, has⟩
            exact .inr (traced.euid has)

theorem Traced.cloneObject (traced : s.Traced) (filename : Str) (caller : Option ObjectId) :
    (s.cloneObject filename caller).1.Traced := by
  unfold State.cloneObject
  split
  · exact traced
  · exact traced.begin filename caller

/-! ## Boot -/

/-- The root uid is set for the first time. -/
theorem Traced.rootAnswered (traced : s.Traced) (unset : s.model.rootUid = none)
    (answer : Answer) : (s.rootAnswered answer).Traced := by
  have ended : Traced { s with boot := .done } := by
    refine ⟨traced.euid, traced.uid, ?_, ?_, nofun⟩
    · intro frame mem
      have before := traced.frames frame mem
      cases frame <;> exact before
    · rintro (never | never | never) <;> cases never
  unfold State.rootAnswered
  cases answer with
  | string rootStr =>
      dsimp only
      split
      · exact ended
      · have grows {name : Str} (granted : s.Granted name) :
            State.Granted { s with
              model := { s.model with rootUid := some rootStr }
              boot := .getBbUid rootStr } name := by
          rcases granted with root | logged
          · rw [unset] at root
            cases root
          · exact .inr logged
        refine ⟨fun here => grows (traced.euid here), fun here => ?_, ?_, ?_, ?_⟩
        · exact (traced.uid here).imp id grows
        · intro frame mem
          have before := traced.frames frame mem
          cases frame <;> exact before
        · rintro (never | never | never) <;> cases never
        · rintro _ ⟨⟩
          rfl
  | _ => exact ended

theorem Traced.bbAnswered {mudlib : Mudlib} {rootStr : Str} (traced : s.Traced)
    (root : s.model.rootUid = some rootStr) (answer : Answer) :
    (s.bbAnswered mudlib rootStr answer).Traced := by
  have booted (backboneUid : Option Str) : Traced { s with
      model := { s.model with backboneUid, autoTrustBackbone := mudlib.autoTrustBackbone }
      boot := .done } := by
    refine ⟨traced.euid, traced.uid, ?_, ?_, nofun⟩
    · intro frame mem
      have before := traced.frames frame mem
      cases frame <;> exact before
    · rintro (never | never | never) <;> cases never
  unfold State.bbAnswered
  dsimp only
  split
  · apply ((booted _).setUid _).setEuid
    · rintro _ ⟨⟩
      exact granted_root root
    · rintro _ ⟨⟩
      exact .inr (granted_root root)
  · exact booted _

/-! ## Steps -/

variable {mudlib : Mudlib}

theorem Traced.boot (traced : s.Traced) {master : ObjectId} (loading : s.boot = .loading) :
    Traced { s with master := some master, boot := .getRootUid } where
  euid here := traced.euid here
  uid here := traced.uid here
  frames frame mem := by
    have before := traced.frames frame mem
    cases frame <;> exact before
  unset _ := traced.unset (.inl loading)
  set never := by cases never

theorem Traced.askMasterUid (traced : s.Traced) (asking : s.boot = .getRootUid) :
    Traced { s with boot := .getMasterUid } where
  euid here := traced.euid here
  uid here := traced.uid here
  frames frame mem := by
    have before := traced.frames frame mem
    cases frame <;> exact before
  unset _ := traced.unset (.inr (.inl asking))
  set never := by cases never

theorem Traced.destruct (traced : s.Traced) (obj : ObjectId) :
    Traced { s with destructed := Function.update s.destructed obj true } where
  euid here := traced.euid here
  uid here := traced.uid here
  frames frame mem := by
    have before := traced.frames frame mem
    cases frame <;> exact before
  unset := traced.unset
  set := traced.set

theorem Traced.run (defined : mudlib.validSeteuid = true) (traced : s.Traced) {op : Op}
    {result : State × Option Result} (done : s.run mudlib op = some result) :
    result.1.Traced := by
  cases op with
  | load filename loader =>
      obtain ⟨_, ⟨⟩⟩ := Option.ite_none_right_eq_some.mp done
      exact traced.begin filename loader
  | clone filename caller =>
      obtain ⟨_, ⟨⟩⟩ := Option.ite_none_right_eq_some.mp done
      exact traced.cloneObject filename caller
  | privsFileReturns =>
      simp only [State.run] at done
      split at done
      · rename_i obj filename loader stack here
        cases done
        have remembers := traced.frames _ (here ▸ List.mem_cons_self)
        exact (traced.pop here).askCreator remembers.1 remembers.2
      · cases done
  | creatorFileReturns answer =>
      simp only [State.run] at done
      split at done
      · rename_i obj filename loader stack here
        cases done
        have remembers := traced.frames _ (here ▸ List.mem_cons_self)
        exact (traced.pop here).assignObjectUid remembers.1 answer
      · cases done
  | seteuid caller arg =>
      obtain ⟨_, ⟨⟩⟩ := Option.ite_none_right_eq_some.mp done
      exact traced.seteuid defined caller arg
  | validSeteuidReturns answer =>
      simp only [State.run] at done
      split at done
      · rename_i caller str_ stack here
        cases done
        exact (traced.pop here).seteuidReturns caller str_ answer
      · cases done
  | exportUid caller target =>
      obtain ⟨_, ⟨⟩⟩ := Option.ite_none_right_eq_some.mp done
      exact traced.exportUid caller target
  | destruct obj =>
      cases done
      exact traced.destruct obj
  | masterLoaded obj =>
      obtain ⟨loading, ⟨⟩⟩ := Option.ite_none_right_eq_some.mp done
      exact traced.boot loading.1
  | bootAnswers answer =>
      simp only [State.run] at done
      split at done
      · split at done
        · rename_i asking
          split at done
          · cases done
            exact traced.askMasterUid asking
          · cases done
            exact traced.rootAnswered (traced.unset (.inr (.inl asking))) answer
        · rename_i asking
          cases done
          exact traced.rootAnswered (traced.unset (.inr (.inr asking))) answer
        · rename_i asking
          cases done
          exact traced.bbAnswered (traced.set asking) answer
        · cases done
      · cases done

theorem traced_empty : ({} : State).Traced where
  euid never := by cases never
  uid never := by cases never
  frames _ never := by cases never
  unset _ := rfl
  set never := by cases never

theorem Traced.after (defined : mudlib.validSeteuid = true) (traced : s.Traced) {ops : List Op}
    (reached : s.after mudlib ops = some s') : s'.Traced := by
  induction ops generalizing s with
  | nil =>
      cases reached
      exact traced
  | cons op ops ih =>
      rcases Option.bind_eq_some_iff.mp reached with ⟨result, done, reached⟩
      exact ih (traced.run defined done) reached

theorem Traced.provenance (traced : s.Traced) : s.Provenance where
  euid _ _ here := traced.euid here
  uid _ _ here := .inr (traced.uid here)

/-! ## Refusals -/

/-- The identities are as they were. -/
def SameIds (s s' : State) : Prop :=
  s'.uid = s.uid ∧ s'.euid = s.euid

theorem seteuid_refused {caller : Option ObjectId} {arg : Arg} {result : Result}
    (done : (s.seteuid mudlib caller arg).2 = some result) (refused : result.refused = true) :
    s.SameIds (s.seteuid mudlib caller arg).1 := by
  unfold State.seteuid at done ⊢
  split
  · exact ⟨rfl, rfl⟩
  · rename_i present
    rw [if_neg present] at done
    cases caller with
    | none => exact ⟨rfl, rfl⟩
    | some caller =>
        cases arg with
        | int n =>
            dsimp only at done ⊢
            split
            · exact ⟨rfl, rfl⟩
            · rename_i zero
              rw [if_neg zero] at done
              cases done
              cases refused
        | string str_ =>
            dsimp only at done ⊢
            split
            · exact ⟨rfl, rfl⟩
            · rename_i unasked
              rw [if_neg unasked] at done
              cases done
              cases refused
        | missing => exact ⟨rfl, rfl⟩
        | other => exact ⟨rfl, rfl⟩

theorem seteuidReturns_refused {caller : ObjectId} {str_ : Str} {answer : Answer}
    (refused : (s.seteuidReturns caller str_ answer).2.refused = true) :
    s.SameIds (s.seteuidReturns caller str_ answer).1 := by
  unfold State.seteuidReturns at refused ⊢
  cases answer with
  | throws message => exact ⟨rfl, rfl⟩
  | _ =>
      dsimp only at refused ⊢
      split
      · rename_i approved
        rw [if_pos approved] at refused
        cases refused
      · exact ⟨rfl, rfl⟩

theorem seteuidReturns_denied {caller : ObjectId} {str_ : Str} {answer : Answer}
    (denied : ¬ Affirms answer) : s.SameIds (s.seteuidReturns caller str_ answer).1 := by
  rw [affirms_iff] at denied
  unfold State.seteuidReturns
  cases answer with
  | throws message => exact ⟨rfl, rfl⟩
  | _ =>
      dsimp only
      split
      · next approves => exact absurd ⟨fun _ => Answer.noConfusion, approves⟩ denied
      · exact ⟨rfl, rfl⟩

theorem exportUid_refused {caller target : Option ObjectId}
    (refused : (s.exportUid caller target).2.refused = true) :
    s.SameIds (s.exportUid caller target).1 := by
  unfold State.exportUid at refused ⊢
  cases target with
  | none => exact ⟨rfl, rfl⟩
  | some target =>
      cases here : caller.bind s.euid with
      | none => exact ⟨rfl, rfl⟩
      | some euid =>
          rw [here] at refused
          dsimp only at refused ⊢
          split
          · exact ⟨rfl, rfl⟩
          · rename_i unset
            rw [if_neg unset] at refused
            cases refused

theorem cloneObject_answers {filename : Str} {caller : Option ObjectId} {result : Result}
    (done : (s.cloneObject filename caller).2 = some result) :
    (s.cloneObject filename caller).1 = s := by
  unfold State.cloneObject at done ⊢
  split
  · rfl
  · rename_i allowed
    rw [if_neg allowed] at done
    cases done

theorem refused_run {op : Op} {result : Result} (done : s.run mudlib op = some (s', some result))
    (refused : result.refused = true) : s.SameIds s' := by
  cases op with
  | seteuid caller arg =>
      simp only [State.run] at done
      split at done
      · have same := Option.some.inj done
        have ends := seteuid_refused (congrArg Prod.snd same) refused
        rw [same] at ends
        exact ends
      · cases done
  | validSeteuidReturns answer =>
      simp only [State.run] at done
      split at done
      · cases done
        exact seteuidReturns_refused refused
      · cases done
  | exportUid caller target =>
      obtain ⟨_, ⟨⟩⟩ := Option.ite_none_right_eq_some.mp done
      exact exportUid_refused refused
  | clone filename caller =>
      simp only [State.run] at done
      split at done
      · have same := Option.some.inj done
        have kept := cloneObject_answers (congrArg Prod.snd same)
        rw [same] at kept
        cases kept
        exact ⟨rfl, rfl⟩
      · cases done
  | bootAnswers answer =>
      simp only [State.run] at done
      split at done
      · split at done
        · split at done <;> cases done
        all_goals cases done
      · cases done
  | destruct obj => cases done
  | _ =>
      simp only [State.run] at done
      split at done <;> cases done

/-- An object whose euid is unset clones nothing. -/
theorem clone_refused {filename : Str} {caller : ObjectId} {result : Option Result}
    (active : s.model.active = true) (unset : s.euid caller = none)
    (done : s.run mudlib (.clone filename (some caller)) = some (s', result)) :
    s' = s ∧ ∃ message, result = some (.error message) := by
  have refuses : (s.model.active && (some caller).any fun caller => (s.euid caller).isNone) =
      true := by
    rw [active, Option.any_some, unset]
    rfl
  simp only [State.run, State.cloneObject] at done
  rw [if_pos refuses] at done
  split at done
  · cases done
    exact ⟨rfl, _, rfl⟩
  · cases done

theorem denied_run {answer : Answer} {result : Option Result} (denied : ¬ Affirms answer)
    (done : s.run mudlib (.validSeteuidReturns answer) = some (s', result)) : s.SameIds s' := by
  simp only [State.run] at done
  split at done
  · cases done
    exact seteuidReturns_denied denied
  · cases done

theorem restrained (mudlib : Mudlib) (s : State) : s.Restrained mudlib where
  denied _ _ _ done denied := denied_run denied done
  refused _ _ _ done refused := refused_run done refused
  clones _ _ _ _ active unset done := clone_refused active unset done

end State

/-- In every reachable state each identity has a source, a refused call changes none, and an
object without an euid clones nothing. -/
theorem provenance_law (mudlib : Mudlib) (defined : mudlib.validSeteuid = true)
    (ops : List State.Op) (s : State) (reached : ({} : State).after mudlib ops = some s) :
    s.Provenance ∧ s.Restrained mudlib :=
  ⟨(State.traced_empty.after defined reached).provenance, State.restrained mudlib s⟩

/-- A master that defines its applies. -/
def plainMudlib : Mudlib :=
  ⟨true, true, false⟩

/-- The master is loaded, and loads an object that asks for an euid. -/
def bootAndLoad : List State.Op :=
  [.load (str "/master") none, .masterLoaded 0, .bootAnswers (.string (str "Root")),
    .bootAnswers .nothing, .load (str "/w/obj") (some 0), .privsFileReturns,
    .creatorFileReturns (.string (str "wizard")), .seteuid (some 1) (.string (str "wizard")),
    .validSeteuidReturns (.int 1)]

theorem provenance_law_boot : ∃ s, ({} : State).after plainMudlib bootAndLoad = some s ∧
    s.Provenance ∧ s.Restrained plainMudlib :=
  ⟨_, rfl, provenance_law plainMudlib rfl bootAndLoad _ rfl⟩

/-- The simul_efun object is loaded before the master, and sets its euid. -/
def earlySeteuid : List State.Op :=
  [.load (str "/simul_efun") none, .seteuid (some 0) (.string (str "wizard")),
    .load (str "/master") none, .masterLoaded 1, .bootAnswers (.string (str "Root")),
    .bootAnswers .nothing]

/-- Nobody was asked. -/
theorem earlySeteuid_not_approved :
    ¬ ∀ (mudlib : Mudlib), mudlib.validSeteuid = true → ∀ (ops : List State.Op) (s : State),
      ({} : State).after mudlib ops = some s → ∀ obj name, s.euid obj = some name →
        s.model.rootUid = some name ∨ s.Affirmed name := by
  intro all
  rcases all plainMudlib rfl earlySeteuid _ rfl 0 (str "wizard") rfl with never | never
  · exact absurd never (by decide)
  · obtain ⟨answer, never, _⟩ := never
    rcases List.mem_cons.mp never with never | never
    · cases never
    · cases never

end Kjdmud.Security
