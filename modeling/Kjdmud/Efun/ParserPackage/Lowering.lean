import Kjdmud.Efun.ParserPackage.Checks
import Mathlib.Order.Basic

/-!
# What the checks do to the matches

A check takes candidates out of a match, and may turn it into an error.  One candidate stays
exactly when the callbacks accept it without a message; `pluralCheckFunctions` and
`dependentCheckFunctions` lower their own match and touch no other.
-/

namespace Kjdmud.Efun.ParserPackage

/-! ## Sets -/

theorem mem_members {bits : ObjBitset} {i : Nat} : i ∈ members bits ↔ bits[i]? = some true := by
  rw [members, List.mem_filter, List.mem_range, decide_eq_true_iff]
  refine and_iff_right_of_imp fun set => ?_
  exact (List.getElem?_eq_some_iff.mp set).1

theorem mem_members_refuse {bits : ObjBitset} {i j : Nat} :
    j ∈ members (bits.set i false) ↔ j ∈ members bits ∧ j ≠ i := by
  rw [mem_members, mem_members, List.getElem?_set]
  by_cases same : i = j
  · rw [if_pos same]
    by_cases inside : i < bits.length
    · rw [if_pos inside]
      exact iff_of_false (by simp) fun both => both.2 same.symm
    · rw [if_neg inside]
      exact iff_of_false (by simp) fun both => both.2 same.symm
  · rw [if_neg same]
    exact (and_iff_left fun eq => same eq.symm).symm

theorem mem_members_accept {bits : ObjBitset} {i j : Nat}
    (mem : j ∈ members (bits.set i true)) : j ∈ members bits ∨ j = i := by
  rw [mem_members, List.getElem?_set] at mem
  by_cases same : i = j
  · exact .inr same.symm
  · rw [if_neg same] at mem
    exact .inl (mem_members.mpr mem)

theorem not_mem_members_empty (n j : Nat) : j ∉ members (List.replicate n false) := by
  rw [mem_members, List.getElem?_replicate]
  by_cases inside : j < n
  · rw [if_pos inside]
    simp
  · rw [if_neg inside]
    simp

/-! ## The order of matches -/

/-- A match with fewer candidates, or an error in its place. -/
instance : Preorder SentenceMatch where
  le m n :=
    m.first = n.first ∧ m.last = n.last ∧ m.ordinal = n.ordinal ∧
      (m.token = n.token ∨ m.token = .error) ∧ ∀ i ∈ members m.obs, i ∈ members n.obs
  le_refl m := ⟨rfl, rfl, rfl, .inl rfl, fun _ mem => mem⟩
  le_trans m n o := by
    rintro ⟨first, last, ordinal, token, obs⟩ ⟨first', last', ordinal', token', obs'⟩
    refine ⟨first.trans first', last.trans last', ordinal.trans ordinal', ?_,
      fun i mem => obs' i (obs i mem)⟩
    rcases token with same | error
    · rw [same]
      exact token'
    · exact .inr error

namespace SentenceMatch

variable {m n : SentenceMatch}

theorem choose_le (number : Option Nat) : { m with number := number } ≤ m :=
  ⟨rfl, rfl, rfl, .inl rfl, fun _ mem => mem⟩

theorem spoil_le : { m with token := .error } ≤ m :=
  ⟨rfl, rfl, rfl, .inr rfl, fun _ mem => mem⟩

theorem refuse_le (i : Nat) : { m with obs := m.obs.set i false } ≤ m :=
  ⟨rfl, rfl, rfl, .inl rfl, fun _ mem => (mem_members_refuse.mp mem).1⟩

end SentenceMatch

/-! ## Sessions -/

namespace SentenceSession

/-- One slot is lowered, and nothing else happens to the matches. -/
structure LowersAt (slot : Nat) (session session' : SentenceSession) : Prop where
  length : session'.shared.length = session.shared.length
  lower : session'.slot slot ≤ session.slot slot
  other : ∀ k, k ≠ slot → session'.slot k = session.slot k

variable {session session' session'' : SentenceSession} {slot : Nat}

theorem LowersAt.of_shared (same : session'.shared = session.shared) :
    session.LowersAt slot session' := by
  refine ⟨by rw [same], ?_, fun k _ => ?_⟩
  · rw [SentenceSession.slot, same]
    exact le_refl _
  · rw [SentenceSession.slot, same, ← SentenceSession.slot]

theorem LowersAt.refl (session : SentenceSession) : session.LowersAt slot session :=
  .of_shared rfl

theorem LowersAt.trans (first : session.LowersAt slot session')
    (second : session'.LowersAt slot session'') : session.LowersAt slot session'' where
  length := second.length.trans first.length
  lower := le_trans second.lower first.lower
  other k away := (second.other k away).trans (first.other k away)

theorem slot_modify_self (change : SentenceMatch → SentenceMatch)
    (inside : slot < session.shared.length) :
    (session.modify slot change).slot slot = change (session.slot slot) := by
  rw [SentenceSession.slot, modify, List.getElem?_modify_eq, SentenceSession.slot,
    List.getElem?_eq_getElem inside]
  rfl

theorem slot_modify_other (change : SentenceMatch → SentenceMatch) {k : Nat} (other : k ≠ slot) :
    (session.modify slot change).slot k = session.slot k := by
  rw [SentenceSession.slot, modify, List.getElem?_modify_ne _ _ (Ne.symm other),
    ← SentenceSession.slot]

theorem lowersAt_modify (change : SentenceMatch → SentenceMatch)
    (lower : change (session.slot slot) ≤ session.slot slot) :
    session.LowersAt slot (session.modify slot change) where
  length := List.length_modify change session.shared slot
  lower := by
    by_cases inside : slot < session.shared.length
    · rw [slot_modify_self change inside]
      exact lower
    · have same : (session.modify slot change).slot slot = session.slot slot := by
        rw [SentenceSession.slot, SentenceSession.slot, List.getElem?_eq_none,
          List.getElem?_eq_none]
        · exact Nat.le_of_not_lt inside
        · rw [modify, List.length_modify]
          exact Nat.le_of_not_lt inside
      rw [same]
  other _ := slot_modify_other change

theorem lowersAt_spoil : session.LowersAt slot (session.spoil slot) :=
  lowersAt_modify _ SentenceMatch.spoil_le

theorem lowersAt_refuse (i : Nat) : session.LowersAt slot (session.refuse slot i) :=
  lowersAt_modify _ (SentenceMatch.refuse_le i)

theorem lowersAt_choose (number : Option Nat) :
    session.LowersAt slot (session.choose slot number) :=
  lowersAt_modify _ (SentenceMatch.choose_le number)

/-- An object match is in the array. -/
theorem inside_of_object {modifiers : Modifiers}
    (object : (session.slot slot).token = .object modifiers) : slot < session.shared.length := by
  by_contra outside
  rw [SentenceSession.slot, List.getElem?_eq_none (Nat.le_of_not_lt outside)] at object
  cases object

theorem slot_choose_obs (number : Option Nat) (k : Nat) :
    ((session.choose slot number).slot k).obs = (session.slot k).obs := by
  by_cases same : k = slot
  · rw [same]
    by_cases inside : slot < session.shared.length
    · rw [choose, slot_modify_self _ inside]
    · rw [choose, modify, List.modify_eq_self (Nat.le_of_not_lt inside)]
  · rw [choose, slot_modify_other _ same]

theorem slot_of_shared (same : session'.shared = session.shared) (k : Nat) :
    session'.slot k = session.slot k := by
  rw [SentenceSession.slot, same, ← SentenceSession.slot]

theorem lowersAt_withError (e : ParserErrorInfo) :
    session.LowersAt slot (session.withError e) :=
  .of_shared rfl

theorem firstError_shared (numErrors : Int) (e : ParserErrorInfo) :
    (session.firstError numErrors e).shared = session.shared := by
  rw [firstError]
  split <;> rfl

theorem useLastParallelError_cases (session : SentenceSession) (s : MatchState) :
    (session.parallelError = .none ∧ session.useLastParallelError s = (false, session, s)) ∨
      session.parallelError ≠ .none ∧ ∃ session' : SentenceSession,
        session'.shared = session.shared ∧ session.useLastParallelError s =
          (true, session', { s with numErrors := s.numErrors + 1 }) := by
  by_cases silent : session.parallelError = .none
  · exact .inl ⟨silent, if_pos silent⟩
  · refine .inr ⟨silent, _, ?_, if_neg silent⟩
    split <;> rfl

theorem saveLastParallelError_of_ne (said : session.parallelError ≠ .none) (obj : Nat) :
    ∃ session' : SentenceSession, session'.shared = session.shared ∧
      session.saveLastParallelError obj = (true, session') :=
  ⟨{ session.withError .none with
      parallelErrors := ⟨session.parallelError, obj⟩ :: session.parallelErrors }, rfl,
    if_neg said⟩

theorem cacheLastParallelError_of_none (silent : session.parallelError = .none)
    (storage : ParserErrorInfo) :
    session.cacheLastParallelError storage = (false, session, storage) :=
  if_pos silent

theorem cacheLastParallelError_of_ne (said : session.parallelError ≠ .none)
    (storage : ParserErrorInfo) : session.cacheLastParallelError storage =
      (true, session.withError .none, session.parallelError) :=
  if_neg said

theorem useParallelError_cases (session : SentenceSession) (s : MatchState)
    (err : ParserErrorInfo) :
    (err = .none ∧ session.parallelError = .none ∧
        session.useParallelError s err = (false, session, s)) ∨
      ¬ (err = .none ∧ session.parallelError = .none) ∧ ∃ session' : SentenceSession,
        session'.shared = session.shared ∧ session.useParallelError s err =
          (true, session', { s with numErrors := s.numErrors + 1 }) := by
  rw [useParallelError, useCachedParallelError]
  by_cases none : err = .none
  · rw [if_pos none]
    rcases useLastParallelError_cases session s with ⟨silent, eq⟩ | ⟨said, session', same, eq⟩
    · exact .inl ⟨none, silent, eq⟩
    · exact .inr ⟨fun both => said both.2, session', same, eq⟩
  · rw [if_neg none]
    exact .inr ⟨fun both => none both.1, _, firstError_shared s.numErrors err, rfl⟩

end SentenceSession

namespace Attempt

variable {a : Attempt}

/-! ## Callbacks -/

/-- A callback leaves nothing but an error. -/
def OnlyError (session session' : SentenceSession) : Prop :=
  ∃ e, session' = session.withError e

theorem parallelProcessAnswer_onlyError (session : SentenceSession) (s : MatchState)
    (which : Nat) (answer : Option Answer) :
    OnlyError session (a.parallelProcessAnswer session s which answer).2 := by
  have blamed : OnlyError session (parallelProcessAnswer.blamed a session s which) := by
    rw [parallelProcessAnswer.blamed]
    split
    · exact ⟨_, rfl⟩
    · exact ⟨_, rfl⟩
  unfold parallelProcessAnswer
  split
  · exact ⟨_, rfl⟩
  · exact ⟨_, rfl⟩
  · exact ⟨_, rfl⟩
  · exact ⟨_, rfl⟩
  · exact blamed
  · split
    · exact ⟨_, rfl⟩
    · exact blamed

theorem probeOn_onlyError (ob candidate : ObjectId) (s : MatchState) (which : Nat)
    (tries : List Nat) (session : SentenceSession) :
    OnlyError session (a.probeOn ob candidate session s which tries).2 := by
  induction tries generalizing session with
  | nil => exact ⟨_, rfl⟩
  | cons tryIdx tries ih =>
      rw [probeOn]
      have processed := parallelProcessAnswer_onlyError (a := a) session s which
        (a.ask session ob which tryIdx (.object candidate))
      split
      · next session' eq =>
          rw [eq] at processed
          obtain ⟨e, rfl⟩ := processed
          exact ih _
      · exact processed

/-- The session behind a probe. -/
theorem parallelCheckFunctions_onlyError (session : SentenceSession) (s : MatchState)
    (number which : Nat) :
    OnlyError session (a.parallelCheckFunctions session s number which).2 := by
  unfold parallelCheckFunctions
  dsimp only
  cases a.live (session.withError .none).loaded.objects number with
  | none => exact ⟨_, rfl⟩
  | some candidate =>
      dsimp only
      obtain ⟨e, own⟩ := probeOn_onlyError (a := a) candidate candidate s which fourTries
        (session.withError .none)
      split
      · next eq =>
          rw [eq] at own
          exact ⟨e, own⟩
      · next session₁ eq =>
          rw [eq] at own
          obtain rfl : session₁ = session.withError e := own
          split
          · exact ⟨e, rfl⟩
          · obtain ⟨e', handlers⟩ := probeOn_onlyError (a := a) a.node.handler candidate s which
              fourTries (session.withError e)
            split
            · next eq' =>
                rw [eq'] at handlers
                exact ⟨e', handlers⟩
            · next session₂ eq' =>
                rw [eq'] at handlers
                obtain rfl : session₂ = session.withError e' := handlers
                split
                · exact ⟨_, rfl⟩
                · exact ⟨_, rfl⟩

/-- A probe begins without an error. -/
theorem parallelCheckFunctions_withError (session : SentenceSession) (e : ParserErrorInfo)
    (s : MatchState) (number which : Nat) :
    a.parallelCheckFunctions (session.withError e) s number which =
      a.parallelCheckFunctions session s number which :=
  rfl

/-- The callbacks accept an object. -/
def Accepts (a : Attempt) (session : SentenceSession) (s : MatchState) (which i : Nat) : Prop :=
  (a.parallelCheckFunctions session s i which).1 = true

/-- They accept it and say nothing. -/
def AcceptsSilently (a : Attempt) (session : SentenceSession) (s : MatchState) (which i : Nat) :
    Prop :=
  a.Accepts session s which i ∧
    (a.parallelCheckFunctions session s i which).2.parallelError = .none

/-- The three ways a probe ends. -/
theorem probe_cases (session : SentenceSession) (s : MatchState) (which i : Nat) :
    (a.AcceptsSilently session s which i ∧ a.parallelCheckFunctions session s i which =
        (true, session.withError .none)) ∨
      (∃ e, e ≠ .none ∧ a.Accepts session s which i ∧ ¬ a.AcceptsSilently session s which i ∧
        a.parallelCheckFunctions session s i which =
          (true, session.withError e)) ∨
      (∃ e, ¬ a.Accepts session s which i ∧ a.parallelCheckFunctions session s i which =
        (false, session.withError e)) := by
  obtain ⟨e, only⟩ := parallelCheckFunctions_onlyError (a := a) session s i which
  rw [AcceptsSilently, Accepts]
  generalize a.parallelCheckFunctions session s i which = probe at only
  obtain ⟨accepted, session'⟩ := probe
  cases only
  cases accepted with
  | false => exact .inr (.inr ⟨e, Bool.false_ne_true, rfl⟩)
  | true =>
      by_cases silent : e = .none
      · exact .inl ⟨⟨rfl, silent⟩, silent ▸ rfl⟩
      · exact .inr (.inl ⟨e, silent, rfl, fun both => silent both.2, rfl⟩)

open SentenceSession

variable {slot which : Nat} {s : MatchState}

/-! ## Several objects -/

/-- One candidate: it stays, or it is taken out. -/
theorem pluralLoop_cons (i : Nat) (numbers : List Nat) (foundOne : Bool)
    (session : SentenceSession) :
    (a.AcceptsSilently session s which i ∧
        a.pluralLoop slot which s (i :: numbers) foundOne session =
          a.pluralLoop slot which s numbers true (session.withError .none)) ∨
      ¬ a.AcceptsSilently session s which i ∧ ∃ session' : SentenceSession,
        session'.shared = session.shared ∧
          a.pluralLoop slot which s (i :: numbers) foundOne session =
            a.pluralLoop slot which s numbers foundOne (session'.refuse slot i) := by
  rw [pluralLoop]
  rcases probe_cases (a := a) session s which i with
    ⟨silent, probe⟩ | ⟨e, said, -, loud, probe⟩ | ⟨e, refused, probe⟩
  · refine .inl ⟨silent, ?_⟩
    rw [probe]
    rfl
  · obtain ⟨session', same, saved⟩ := @saveLastParallelError_of_ne (session.withError e) said i
    refine .inr ⟨loud, session', same, ?_⟩
    rw [probe]
    dsimp only
    rw [saved]
  · refine .inr ⟨fun silent => refused silent.1, session.withError e, rfl, ?_⟩
    rw [probe]

theorem pluralLoop_lowersAt (numbers : List Nat) (foundOne : Bool) (session : SentenceSession) :
    session.LowersAt slot (a.pluralLoop slot which s numbers foundOne session).2 := by
  induction numbers generalizing foundOne session with
  | nil => exact .refl session
  | cons i numbers ih =>
      rcases pluralLoop_cons (a := a) (s := s) i numbers foundOne
        session with ⟨-, eq⟩ | ⟨-, session', same, eq⟩
      · rw [eq]
        exact (lowersAt_withError .none).trans (ih true _)
      · rw [eq]
        exact ((LowersAt.of_shared same).trans (lowersAt_refuse i)).trans (ih foundOne _)

theorem pluralCheckFunctions_lowersAt (session : SentenceSession) :
    session.LowersAt slot (a.pluralCheckFunctions session s which slot).1 := by
  have loop := @pluralLoop_lowersAt a slot which s
    (members (session.slot slot).obs) false session
  rw [pluralCheckFunctions]
  generalize a.pluralLoop slot which s _ false session = looped at loop
  obtain ⟨foundOne, session'⟩ := looped
  cases foundOne with
  | true => exact loop
  | false =>
      rcases useLastParallelError_cases session' s with ⟨-, eq⟩ | ⟨-, session'', same, eq⟩
      · dsimp only
        rw [eq]
        exact loop
      · dsimp only
        rw [eq]
        exact (loop.trans (.of_shared same)).trans lowersAt_spoil

/-! ## Two objects -/

/-- One candidate: it stays, or it is taken out. -/
theorem dependentLoop_cons (i : Nat) (numbers : List Nat) (foundOne : Bool)
    (errinfo : ParserErrorInfo) (session : SentenceSession) :
    (a.AcceptsSilently session s which i ∧
        a.dependentLoop slot which s (i :: numbers) foundOne errinfo session =
          a.dependentLoop slot which s numbers true errinfo
            (if foundOne then session.withError .none
              else (session.withError .none).choose slot (some i))) ∨
      ¬ a.AcceptsSilently session s which i ∧ ∃ (session' : SentenceSession) (errinfo' : _),
        session'.shared = session.shared ∧
          a.dependentLoop slot which s (i :: numbers) foundOne errinfo session =
            a.dependentLoop slot which s numbers foundOne errinfo' (session'.refuse slot i) := by
  rw [dependentLoop]
  rcases probe_cases (a := a) session s which i with
    ⟨silent, probe⟩ | ⟨e, said, -, loud, probe⟩ | ⟨e, refused, probe⟩
  · refine .inl ⟨silent, ?_⟩
    rw [probe]
    rfl
  · refine .inr ⟨loud, (session.withError e).withError .none, e, rfl, ?_⟩
    rw [probe]
    dsimp only
    rw [cacheLastParallelError_of_ne said]
    rfl
  · refine .inr ⟨fun silent => refused silent.1, session.withError e, errinfo, rfl, ?_⟩
    rw [probe]

theorem dependentLoop_lowersAt (numbers : List Nat) (foundOne : Bool)
    (errinfo : ParserErrorInfo) (session : SentenceSession) :
    session.LowersAt slot (a.dependentLoop slot which s numbers foundOne errinfo session).2.2 := by
  induction numbers generalizing foundOne errinfo session with
  | nil => exact .refl session
  | cons i numbers ih =>
      rcases dependentLoop_cons (a := a) (s := s) i numbers
        foundOne errinfo session with ⟨-, eq⟩ | ⟨-, session', errinfo', same, eq⟩
      · rw [eq]
        refine LowersAt.trans ?_ (ih true errinfo _)
        split
        · exact lowersAt_withError .none
        · exact (lowersAt_withError .none).trans (lowersAt_choose (some i))
      · rw [eq]
        exact ((LowersAt.of_shared same).trans (lowersAt_refuse i)).trans (ih foundOne errinfo' _)

theorem dependentCheckFunctions_lowersAt (session : SentenceSession) :
    session.LowersAt slot (a.dependentCheckFunctions session s which slot).1 := by
  have loop := @dependentLoop_lowersAt a slot which s
    (members (session.slot slot).obs) false .none session
  rw [dependentCheckFunctions]
  generalize a.dependentLoop slot which s _ false .none session = looped at loop
  obtain ⟨foundOne, errinfo, session'⟩ := looped
  cases foundOne with
  | true => exact loop
  | false =>
      dsimp only
      rcases useParallelError_cases session' s errinfo with
        ⟨-, -, eq⟩ | ⟨-, session'', same, eq⟩
      · rw [eq]
        exact loop
      · rw [eq]
        exact (loop.trans (.of_shared same)).trans lowersAt_spoil

end Attempt

end Kjdmud.Efun.ParserPackage
