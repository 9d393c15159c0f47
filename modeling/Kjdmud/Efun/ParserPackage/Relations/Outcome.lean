import Mathlib.Data.List.ProdSigma
import Kjdmud.Efun.ParserPackage.Relations.Rounds

/-!
# What two objects come to

The scan decides between an error and the objects that `do_` receives.  An error is a second
candidate where one is wanted, an ordinal that counts beyond the indirect objects, a pair behind
the object 0 with which the scan cannot end, or no pair at all, if somebody is to blame for it.
-/

namespace Kjdmud.Efun.ParserPackage

open Attempt SentenceSession

/-! ## The indirect ordinal -/

theorem countedMember_of_pos {numbers : List Nat} {ord : Int} (positive : 0 < ord) :
    countedMember numbers ord = numbers[ord.toNat - 1]? := by
  induction numbers generalizing ord with
  | nil => rfl
  | cons i numbers ih =>
      rw [countedMember]
      by_cases here : ord - 1 = 0
      · rw [if_pos here, show ord.toNat - 1 = 0 by omega]
        rfl
      · rw [if_neg here, ih (by omega), show ord.toNat - 1 = (ord - 1).toNat - 1 + 1 by omega]
        rfl

/-- A counter that begins below 0 does not come to 0. -/
theorem countedMember_of_neg {numbers : List Nat} {ord : Int} (negative : ord < 0) :
    countedMember numbers ord = none := by
  induction numbers generalizing ord with
  | nil => rfl
  | cons i numbers ih => rw [countedMember, if_neg (by omega), ih (by omega)]

theorem members_single {n i : Nat} (inside : i < n) :
    members ((List.replicate n false).set i true) = [i] := by
  have nodup : (members ((List.replicate n false).set i true)).Nodup :=
    List.nodup_range.filter _
  refine List.perm_singleton.mp
    ((List.perm_ext_iff_of_nodup nodup (List.pairwise_singleton _ i)).mpr fun j => ?_)
  rw [TwoObjects.mem_members_set (by rwa [List.length_replicate]), List.mem_singleton]
  exact or_iff_right (not_mem_members_empty n j)

theorem filter_pos_le (numbers : List Nat) : numbers.filter (0 ≤ ·) = numbers :=
  List.filter_eq_self.mpr fun _ _ => decide_eq_true (Nat.zero_le _)

namespace TwoObjects

variable {a : Attempt} {e : TwoObjects a}

theorem Relating.of_probed {session session' : SentenceSession} {slot : Nat}
    (relating : e.Relating session) (probed : Probed slot session session') :
    e.Relating session' where
  objects := by rw [probed.loaded, relating.objects]
  first k := (probed.firsts k).trans (relating.first k)
  last k := (probed.lasts k).trans (relating.last k)
  token k := (probed.tokens k).trans (relating.token k)

/-- The session of the scan, behind the choice of the indirect object. -/
structure Aimed (e : TwoObjects a) (session : SentenceSession) : Prop where
  relating : e.Relating session
  loaded : session.loaded = e.session.loaded
  length : session.shared.length = e.session.shared.length
  directs : members (session.slot e.directSlot).obs = e.directs
  targets : members (session.slot e.indirectSlot).obs = e.targets
  directOrdinal : (session.slot e.directSlot).ordinal = e.direct.ordinal

theorem chooseIndirect_spec {session : SentenceSession} (sieved : e.Sieved session) :
    (e.targets = [] ∧ e.indirect.ordinal ≠ 0 ∧ ∃ session' s',
        chooseIndirect e.indirectSlot session e.state = (false, session', s') ∧
          s'.numErrors ≠ 0) ∨
      ((e.indirects ≠ [] → e.targets ≠ []) ∧ ∃ session',
        chooseIndirect e.indirectSlot session e.state = (true, session', e.state) ∧
          e.Aimed session') := by
  have errorless := e.errorless
  have oneMore : e.state.numErrors + 1 ≠ 0 := by omega
  rw [chooseIndirect]
  dsimp only
  rw [sieved.indirectOrdinal, sieved.indirects]
  by_cases zero : e.indirect.ordinal = 0
  · have same : e.targets = e.indirects := if_pos zero
    rw [if_pos zero]
    refine .inr ⟨fun some => same ▸ some, session, rfl, sieved.relating, sieved.loaded,
      sieved.length, sieved.directs, ?_, sieved.directOrdinal⟩
    rw [same, sieved.indirects]
  · rw [if_neg zero]
    by_cases positive : 0 < e.indirect.ordinal
    · have targets_ : e.targets = (e.indirects[e.indirect.ordinal.toNat - 1]?).toList := by
        rw [targets, if_neg zero, if_pos positive]
      rw [if_pos positive, filter_pos_le, countedMember_of_pos positive]
      cases counted : e.indirects[e.indirect.ordinal.toNat - 1]? with
      | none =>
          rw [counted] at targets_
          exact .inl ⟨targets_, zero, _, _, rfl, oneMore⟩
      | some chosen =>
          rw [counted, Option.toList_some] at targets_
          have mem : chosen ∈ members (session.slot e.indirectSlot).obs := by
            rw [sieved.indirects]
            exact List.mem_of_getElem? counted
          have early : chosen < (session.slot e.indirectSlot).obs.length :=
            (List.getElem?_eq_some_iff.mp (mem_members.mp mem)).1
          have inside : e.indirectSlot < session.shared.length := by
            rw [sieved.length]
            exact inside_of_object e.indirectMatch.object.choose_spec
          have probed : Probed e.indirectSlot session (session.modify e.indirectSlot fun m =>
              { m with obs := (List.replicate m.obs.length false).set chosen true }) :=
            .modify (fun m => { m with obs := (List.replicate m.obs.length false).set chosen true })
              (fun _ => rfl) (fun _ => rfl) (fun _ => rfl) (fun _ => rfl) session
          refine .inr ⟨fun _ => by rw [targets_]; exact List.cons_ne_nil chosen [], _, rfl, ?_⟩
          constructor
          · exact sieved.relating.of_probed probed
          · exact sieved.loaded
          · rw [probed.length, sieved.length]
          · rw [probed.other _ e.apart.symm, sieved.directs]
          · rw [slot_modify_self _ inside, targets_]
            exact members_single early
          · rw [probed.other _ e.apart.symm, sieved.directOrdinal]
    · have targets_ : e.targets = [] := by
        rw [targets, if_neg zero, if_neg positive]
      rw [if_neg positive, countedMember_of_neg (by omega)]
      exact .inl ⟨targets_, zero, _, _, rfl, oneMore⟩

/-! ## The pair of matches -/

theorem pairOf_eq {session : SentenceSession} (relating : e.Relating session)
    (length : session.shared.length = e.session.shared.length) :
    pairOf (session.shared.take e.state.numMatches) 0 (none, none) =
      some (some e.directSlot, some e.indirectSlot) := by
  have ordered := e.ordered
  have inside := e.inside
  have text {slots : List Nat} (here : ∀ k ∈ slots, k < e.state.numMatches ∧
      k ≠ e.directSlot ∧ k ≠ e.indirectSlot) : ∀ m ∈ slots.map session.slot, IsText m := by
    intro m mem
    obtain ⟨k, listed, rfl⟩ := List.mem_map.mp mem
    obtain ⟨early, apart, apart'⟩ := here k listed
    rw [IsText, relating.token]
    exact e.others k early apart apart'
  obtain ⟨modifiers, object⟩ := e.directMatch.object
  obtain ⟨modifiers', object'⟩ := e.indirectMatch.object
  rw [← relating.token] at object object'
  have rest : ∀ m ∈ (List.range' (e.indirectSlot + 1)
      (e.state.numMatches - e.indirectSlot - 1)).map session.slot, IsText m := by
    refine text fun k mem => ?_
    have := List.mem_range'_1.mp mem
    omega
  have whole := pairOf_skip rest [] (e.indirectSlot + 1)
    (some e.directSlot, some e.indirectSlot)
  rw [List.append_nil] at whole
  rw [take_shared (by rw [length]; exact e.matches_inside), range_split ordered inside,
    List.map_append, List.map_cons, List.map_append, List.map_cons, pairOf_skip,
    pairOf_object object, pairOf_skip, pairOf_object object']
  · rw [List.length_map, List.length_range, List.length_map, List.length_range', Nat.zero_add,
      show e.directSlot + 1 + (e.indirectSlot - e.directSlot - 1) = e.indirectSlot by omega]
    exact whole
  · refine text fun k mem => ?_
    have := List.mem_range'_1.mp mem
    omega
  · refine text fun k mem => ?_
    have := List.mem_range.mp mem
    omega

/-! ## The end of the scan -/

/-- The variables with which the scan begins. -/
def start (e : TwoObjects a) (n : Nat) : Pairing where
  directOrdinal := if e.direct.ordinal = 0 then -1 else e.direct.ordinal
  directsAccum := List.replicate n false
  indirectsAccum := List.replicate n false

theorem reached_start : e.Reached [] (e.start e.session.loaded.objects.length) where
  ordinal := by
    rw [start, List.length_nil]
    dsimp only
    split_ifs <;> omega
  direct := by
    rw [fromOrdinal, List.drop_nil]
    rfl
  indirect := rfl
  directs d := by
    rw [fromOrdinal, List.drop_nil]
    refine iff_of_false (not_mem_members_empty _ d) ?_
    rintro ⟨_, mem, _⟩
    exact List.not_mem_nil mem
  indirects i := by
    refine iff_of_false (not_mem_members_empty _ i) ?_
    rintro ⟨_, mem, _⟩
    exact List.not_mem_nil mem
  directSize := List.length_replicate
  indirectSize := List.length_replicate

/-- No pair is counted, but nobody is to blame for it: no message is cached, and the probes of
the last pair are silent. -/
def Unblamed (e : TwoObjects a) : Prop :=
  (∀ pair ∈ e.rows ×ˢ e.targets, e.isCached pair = false) ∧
    ∀ pair, (e.rows ×ˢ e.targets).getLast? = some pair → e.isComplete pair = true

theorem Leaves.unblamed_iff {p q : Pairing} {session session' : SentenceSession}
    (leaves : e.Leaves (e.rows ×ˢ e.targets) p.err q.err session session') (silent : p.err = .none)
    (asked : e.rows ×ˢ e.targets ≠ []) :
    (q.err = .none ∧ session'.parallelError = .none) ↔ e.Unblamed := by
  obtain ⟨pair, final⟩ : ∃ pair, (e.rows ×ˢ e.targets).getLast? = some pair :=
    ⟨_, List.getLast?_eq_some_getLast asked⟩
  rw [Unblamed, leaves.cached, and_iff_right silent]
  refine and_congr_right fun plain => ?_
  rw [leaves.last pair final (plain pair (List.mem_of_getLast? final)), final]
  simp

/-- The matches with what the pairs came to. -/
def noted (slots : PairSlots) (p : Pairing) (session : SentenceSession) : SentenceSession :=
  (session.modify slots.direct fun m =>
    { m with
      obs := p.directsAccum
      number := if slots.directUnique then p.foundDirect else some 0 }).modify slots.indirect
    fun m =>
      { m with
        obs := p.indirectsAccum
        number := if slots.indirectUnique then p.foundIndirect else some 0 }

theorem slot_noted_direct (slots : PairSlots) (p : Pairing) {session : SentenceSession}
    (apart : slots.direct ≠ slots.indirect) (inside : slots.direct < session.shared.length) :
    (noted slots p session).slot slots.direct =
      { session.slot slots.direct with
        obs := p.directsAccum
        number := if slots.directUnique then p.foundDirect else some 0 } := by
  rw [noted, slot_modify_other _ apart, slot_modify_self _ inside]

theorem slot_noted_indirect (slots : PairSlots) (p : Pairing) {session : SentenceSession}
    (inside : slots.indirect < session.shared.length) :
    ((noted slots p session).slot slots.indirect).number =
        (if slots.indirectUnique then p.foundIndirect else some 0) ∧
      ((noted slots p session).slot slots.indirect).obs = p.indirectsAccum := by
  rw [noted, slot_modify_self]
  · exact ⟨rfl, rfl⟩
  · rwa [SentenceSession.modify, List.length_modify]

theorem endPairs_cases (slots : PairSlots) (p : Pairing) (session : SentenceSession)
    (s : MatchState) :
    ((p.foundDirect ≠ none ∧ p.foundIndirect ≠ none ∨
          p.err = .none ∧ session.parallelError = .none) ∧
        endPairs slots p session s = (noted slots p session, s)) ∨
      (¬ (p.foundDirect ≠ none ∧ p.foundIndirect ≠ none ∨
          p.err = .none ∧ session.parallelError = .none) ∧
        (endPairs slots p session s).2 = { s with numErrors := s.numErrors + 1 }) := by
  have error : (noted slots p session).parallelError = session.parallelError := rfl
  rw [endPairs, ← noted]
  by_cases direct : p.foundDirect = none
  · rw [if_pos direct, ← error]
    rcases useParallelError_cases (noted slots p session) s p.err with
      ⟨silent, silent', eq⟩ | ⟨said, session', -, eq⟩
    · rw [eq]
      exact .inl ⟨.inr ⟨silent, silent'⟩, rfl⟩
    · rw [eq]
      exact .inr ⟨fun either => either.elim (fun found => found.1 direct) said, rfl⟩
  · rw [if_neg direct]
    by_cases indirect : p.foundIndirect = none
    · rw [if_pos indirect, ← error]
      rcases useParallelError_cases (noted slots p session) s p.err with
        ⟨silent, silent', eq⟩ | ⟨said, session', -, eq⟩
      · rw [eq]
        exact .inl ⟨.inr ⟨silent, silent'⟩, rfl⟩
      · rw [eq]
        exact .inr ⟨fun either => either.elim (fun found => found.2 indirect) said, rfl⟩
    · rw [if_neg indirect]
      exact .inl ⟨.inl ⟨direct, indirect⟩, rfl⟩

/-! ## The law -/

/-- Nothing is in the way of the pairs. -/
structure Admitted (e : TwoObjects a) : Prop where
  /-- An ordinal of the indirect object does not count beyond the candidates. -/
  targets : e.targets ≠ []
  clear : e.Clear e.tried
  alone : e.Alone
  uncounted : e.fromOrdinal e.tried = [] → e.Unblamed

/-- An interpretation without an error. -/
structure Comes (e : TwoObjects a) (q : Pairing) (session : SentenceSession) : Prop where
  outcome : e.outcome = (noted e.slots q session, e.state)
  loaded : session.loaded = e.session.loaded
  token : ∀ k, (session.slot k).token = (e.session.slot k).token
  length : session.shared.length = e.session.shared.length
  reached : e.Reached e.tried q
  someDirect : e.directUnique = true → e.directs ≠ []
  someIndirect : e.indirectUnique = true → e.indirects ≠ []
  admitted : e.directs ≠ [] → e.indirects ≠ [] → e.Admitted

theorem rows_product_ne_nil (directs : e.directs ≠ []) (targets : e.targets ≠ []) :
    e.rows ×ˢ e.targets ≠ [] := by
  obtain ⟨i, mem⟩ := List.exists_mem_of_ne_nil _ targets
  obtain ⟨d, after, listed⟩ := List.exists_cons_of_ne_nil directs
  have first : d ∈ e.rows := by
    rw [rows, listed]
    split_ifs
    · exact List.mem_cons_self
    · exact List.mem_cons_self
  exact List.ne_nil_of_mem (List.pair_mem_product.mpr ⟨first, mem⟩)

theorem Reached.found_iff {q : Pairing} (reached : e.Reached e.tried q) :
    (q.foundDirect ≠ none ∧ q.foundIndirect ≠ none) ↔ e.fromOrdinal e.tried ≠ [] := by
  rw [reached.direct, reached.indirect, Ne, Ne, Option.map_eq_none_iff, Option.map_eq_none_iff,
    List.getLast?_eq_none_iff, List.getLast?_eq_none_iff]
  refine and_iff_left_of_imp fun counted none => counted ?_
  rw [none, fromOrdinal, List.drop_nil]

/-- An interpretation ends with an error, or with the objects of the scan. -/
theorem outcome_cases (e : TwoObjects a) :
    (e.outcome.2.numErrors ≠ 0 ∧ (e.directs = [] ∨ e.indirects = [] ∨ ¬ e.Admitted)) ∨
      ∃ q session, e.Comes q session := by
  have errorless := e.errorless
  have oneMore : e.state.numErrors + 1 ≠ 0 := by omega
  rcases e.rounds with ⟨errors, none⟩ | ⟨session, sieved, outcome_⟩
  · exact .inl ⟨errors, none.imp id .inl⟩
  have slots_ : ({ direct := e.directSlot, indirect := e.indirectSlot
                   directUnique := !(session.slot e.directSlot).token.plural
                   indirectUnique := !(session.slot e.indirectSlot).token.plural } : PairSlots) =
      e.slots := by
    rw [sieved.relating.token, sieved.relating.token]
    rfl
  rw [checkObjectRelations, relate, pairOf_eq sieved.relating sieved.length] at outcome_
  dsimp only at outcome_
  rw [slots_] at outcome_
  rcases chooseIndirect_spec sieved with
    ⟨none, -, session₁, s₁, chosen, errors⟩ | ⟨someTarget, session₁, chosen, aimed⟩
  · rw [chosen] at outcome_
    dsimp only at outcome_
    rw [outcome_]
    exact .inl ⟨errors, .inr (.inr fun admitted => admitted.targets none)⟩
  rw [chosen] at outcome_
  dsimp only at outcome_
  rw [aimed.directs, aimed.targets, aimed.directOrdinal, aimed.loaded] at outcome_
  rcases scan_ends errorless aimed.relating reached_start with
    ⟨q, session₂, run, passes, alone, leaves⟩ | ⟨session₂, s₂, run, errors, unclear⟩
  · rw [start] at run leaves
    rw [run] at outcome_
    dsimp only at outcome_
    have blame (some : e.directs ≠ []) (some' : e.indirects ≠ [])
        (uncounted : e.fromOrdinal e.tried = []) :
        (q.err = .none ∧ session₂.parallelError = .none) ↔ e.Unblamed :=
      (leaves uncounted).unblamed_iff rfl (rows_product_ne_nil some (someTarget some'))
    rcases endPairs_cases e.slots q session₂ e.state with ⟨silent, eq⟩ | ⟨said, eq⟩
    · rw [eq] at outcome_
      refine .inr ⟨q, session₂, outcome_, passes.loaded.trans aimed.loaded, fun k => ?_, ?_,
        passes.reached, sieved.someDirect, sieved.someIndirect, fun some some' => ?_⟩
      · rw [slot_of_shared passes.shared, aimed.relating.token]
      · rw [passes.shared, aimed.length]
      · refine ⟨someTarget some', passes.clear, alone, fun uncounted => ?_⟩
        rw [passes.reached.found_iff] at silent
        exact (blame some some' uncounted).mp (silent.resolve_left (not_not_intro uncounted))
    · rw [outcome_, eq]
      refine .inl ⟨oneMore, ?_⟩
      by_cases none : e.directs = []
      · exact .inl none
      by_cases none' : e.indirects = []
      · exact .inr (.inl none')
      refine .inr (.inr fun admitted => said ?_)
      rw [passes.reached.found_iff]
      by_cases uncounted : e.fromOrdinal e.tried = []
      · exact .inr ((blame none none' uncounted).mpr (admitted.uncounted uncounted))
      · exact .inl uncounted
  · rw [start] at run
    rw [run] at outcome_
    dsimp only at outcome_
    rw [outcome_]
    exact .inl ⟨errors, .inr (.inr fun admitted => unclear ⟨admitted.clear, admitted.alone⟩)⟩

/-! ## What `do_` receives -/

namespace Comes

variable {q : Pairing} {session : SentenceSession}

theorem accepted (comes : e.Comes q session) : e.Accepted := by
  rw [Accepted, comes.outcome]
  exact e.errorless

theorem slot_direct (comes : e.Comes q session) :
    (e.outcome.1.slot e.directSlot).number = (if e.directUnique then q.foundDirect else some 0) ∧
      (e.outcome.1.slot e.directSlot).obs = q.directsAccum := by
  have inside : e.directSlot < session.shared.length := by
    rw [comes.length]
    exact inside_of_object e.directMatch.object.choose_spec
  rw [comes.outcome]
  change ((noted e.slots q session).slot e.slots.direct).number = _ ∧
    ((noted e.slots q session).slot e.slots.direct).obs = _
  rw [slot_noted_direct e.slots q e.apart.symm inside]
  exact ⟨rfl, rfl⟩

theorem slot_indirect (comes : e.Comes q session) :
    (e.outcome.1.slot e.indirectSlot).number =
        (if e.indirectUnique then q.foundIndirect else some 0) ∧
      (e.outcome.1.slot e.indirectSlot).obs = q.indirectsAccum := by
  have inside : e.indirectSlot < session.shared.length := by
    rw [comes.length]
    exact inside_of_object e.indirectMatch.object.choose_spec
  rw [comes.outcome]
  exact slot_noted_indirect e.slots q inside

end Comes

theorem accepted_cases (accepted : e.Accepted) : ∃ q session, e.Comes q session :=
  e.outcome_cases.resolve_left fun refused => refused.1 accepted

theorem missing_not_accepted
    (none : e.directUnique = true ∧ e.directs = [] ∨ e.indirectUnique = true ∧ e.indirects = []) :
    ¬ e.Accepted := by
  intro accepted
  obtain ⟨q, session, comes⟩ := accepted_cases accepted
  rcases none with ⟨unique, none⟩ | ⟨unique, none⟩
  · exact comes.someDirect unique none
  · exact comes.someIndirect unique none

theorem accepted_iff_admitted (someDirect : e.directs ≠ []) (someIndirect : e.indirects ≠ []) :
    e.Accepted ↔ e.Admitted := by
  rcases e.outcome_cases with ⟨errors, refused⟩ | ⟨q, session, comes⟩
  · refine iff_of_false errors fun admitted => ?_
    rcases refused with none | none | unadmitted
    · exact someDirect none
    · exact someIndirect none
    · exact unadmitted admitted
  · exact iff_of_true comes.accepted (comes.admitted someDirect someIndirect)

theorem receives_direct (unique : e.directUnique = true) (accepted : e.Accepted) :
    e.receives e.directSlot = (e.fromOrdinal e.tried).getLast?.map Prod.fst := by
  obtain ⟨q, session, comes⟩ := accepted_cases accepted
  rw [receives, comes.slot_direct.1, if_pos unique, comes.reached.direct]

theorem receives_indirect (unique : e.indirectUnique = true) (accepted : e.Accepted) :
    e.receives e.indirectSlot = e.tried.getLast?.map Prod.snd := by
  obtain ⟨q, session, comes⟩ := accepted_cases accepted
  rw [receives, comes.slot_indirect.1, if_pos unique, comes.reached.indirect]

theorem receivesAll_direct (accepted : e.Accepted) (d : Nat) :
    d ∈ e.receivesAll e.directSlot ↔
      ∃ i, (d, i) ∈ e.fromOrdinal e.tried ∧ e.isFlagged (d, i) = false := by
  obtain ⟨q, session, comes⟩ := accepted_cases accepted
  rw [receivesAll, comes.slot_direct.2, comes.reached.directs]

theorem receivesAll_indirect (accepted : e.Accepted) (i : Nat) :
    i ∈ e.receivesAll e.indirectSlot ↔ ∃ d, (d, i) ∈ e.tried ∧ e.isFlagged (d, i) = false := by
  obtain ⟨q, session, comes⟩ := accepted_cases accepted
  rw [receivesAll, comes.slot_indirect.2, comes.reached.indirects]

/-! ## The record -/

/-- `weAreFinished` begins to probe the interpretation: it does not put it aside, and the `can_`
callback does not stop it. -/
structure Entered (e : TwoObjects a) (session : SentenceSession) (s : MatchState) : Prop where
  kept : a.putsAside session s = false
  checked : a.checkFunctions { session with foundLevel := max session.foundLevel 2 } s =
    (true, e.session, e.state)

theorem Entered.finished {session : SentenceSession} {s : MatchState}
    (entered : e.Entered session s) :
    (e.Accepted → a.weAreFinished session s = a.recordMatch e.outcome.1) ∧
      (¬ e.Accepted → a.weAreFinished session s = a.recordError e.outcome.1 e.outcome.2) := by
  have kept : ¬ a.putsAside { session with foundLevel := max session.foundLevel 2 } s = true :=
    Bool.eq_false_iff.mp entered.kept
  rw [weAreFinished]
  dsimp only
  rw [if_neg kept, entered.checked]
  exact ⟨fun accepted => if_neg (not_not_intro accepted), fun refused => if_pos refused⟩

/-- The argument of `do_` for one of the matches. -/
def argument (e : TwoObjects a) (slot : Nat) : Arg :=
  if (e.session.slot slot).token.plural then
    a.pushBitvecAsArray e.outcome.1 (e.outcome.1.slot slot).obs true
  else (e.receives slot).elim (.number 0) (a.objectArg e.session)

theorem matchArg_eq (accepted : e.Accepted) {slot omatch : Nat} {modifiers : Modifiers}
    (object : (e.session.slot slot).token = .object modifiers) (early : omatch < 3)
    (target : Arg) :
    a.matchArg e.outcome.1 3 target (e.outcome.1.slot slot) omatch = e.argument slot := by
  obtain ⟨q, session, comes⟩ := accepted_cases accepted
  have token : (e.outcome.1.slot slot).token = .object modifiers := by
    rw [comes.outcome, ← object, ← comes.token]
    dsimp only
    rw [noted]
    refine (Probed.tokens (.modify _ ?_ ?_ ?_ ?_ _) slot).trans
      (Probed.tokens (.modify _ ?_ ?_ ?_ ?_ _) slot)
    all_goals exact fun _ => rfl
  have objects : e.outcome.1.loaded = e.session.loaded := by
    rw [comes.outcome, ← comes.loaded]
    rfl
  rw [Attempt.matchArg, if_neg (by decide), if_neg (by omega), if_neg (by omega), token,
    if_neg (by simp), argument, object, receives]
  by_cases plural : (MatchToken.object modifiers).plural = true
  · rw [if_pos plural, if_pos plural]
    rfl
  · rw [if_neg plural, if_neg plural]
    have same : a.objectArg e.outcome.1 = a.objectArg e.session := by
      funext number
      rw [Attempt.objectArg, objects, ← Attempt.objectArg]
    rw [same]

/-- How an interpretation with two objects ends. -/
structure Settled (e : TwoObjects a) : Prop where
  /-- A singular match needs a candidate of its own. -/
  missing : e.directUnique = true ∧ e.directs = [] ∨ e.indirectUnique = true ∧ e.indirects = [] →
    ¬ e.Accepted
  accepted : e.directs ≠ [] → e.indirects ≠ [] → (e.Accepted ↔ e.Admitted)
  /-- The last pair that is counted has the direct object, and the last of all the indirect
  one. -/
  direct : e.directUnique = true → e.Accepted →
    e.receives e.directSlot = (e.fromOrdinal e.tried).getLast?.map Prod.fst
  indirect : e.indirectUnique = true → e.Accepted →
    e.receives e.indirectSlot = e.tried.getLast?.map Prod.snd
  /-- A pair with a message brings no object into a plural. -/
  directs : e.Accepted → ∀ d, d ∈ e.receivesAll e.directSlot ↔
    ∃ i, (d, i) ∈ e.fromOrdinal e.tried ∧ e.isFlagged (d, i) = false
  indirects : e.Accepted → ∀ i, i ∈ e.receivesAll e.indirectSlot ↔
    ∃ d, (d, i) ∈ e.tried ∧ e.isFlagged (d, i) = false
  /-- `weAreFinished` makes a best match of it, or an error. -/
  finished : ∀ session s, e.Entered session s →
    (e.Accepted → a.weAreFinished session s = a.recordMatch e.outcome.1) ∧
      (¬ e.Accepted → a.weAreFinished session s = a.recordError e.outcome.1 e.outcome.2)
  /-- `do_` is built with what the matches receive. -/
  argument : e.Accepted → ∀ slot ∈ [e.directSlot, e.indirectSlot], ∀ omatch < 3, ∀ target,
    a.matchArg e.outcome.1 3 target (e.outcome.1.slot slot) omatch = e.argument slot

theorem outcome_settled (e : TwoObjects a) : e.Settled where
  missing := missing_not_accepted
  accepted := accepted_iff_admitted
  direct := receives_direct
  indirect := receives_indirect
  directs := receivesAll_direct
  indirects := receivesAll_indirect
  finished _ _ entered := entered.finished
  argument accepted slot mem omatch early target := by
    have object : ∃ modifiers, (e.session.slot slot).token = .object modifiers := by
      rcases List.mem_cons.mp mem with rfl | mem
      · exact e.directMatch.object
      · rw [List.mem_singleton.mp mem]
        exact e.indirectMatch.object
    exact matchArg_eq accepted object.choose_spec early target

/-! ## Without ordinals and messages -/

/-- No ordinal and no modifier `c`, and the probes of the pairs answer no string. -/
structure Simple (e : TwoObjects a) : Prop where
  directOrdinal : e.direct.ordinal = 0
  indirectOrdinal : e.indirect.ordinal = 0
  choose : e.direct.token.choose = false
  silent : ∀ pair ∈ e.directs ×ˢ e.indirects, ∀ which ∈ [4, 5],
    (e.relation which pair).any Answer.isText = false

theorem complete_eq (e : TwoObjects a) :
    e.complete = (e.directs ×ˢ e.targets).filter e.isComplete := by
  rw [complete, hits]
  exact List.filter_flatMap.symm

namespace Simple

variable {pair : Nat × Nat}

theorem targets_eq (simple : e.Simple) : e.targets = e.indirects :=
  if_pos simple.indirectOrdinal

theorem not_chooses (simple : e.Simple) : ¬ e.Chooses := by
  intro chooses
  have choose := chooses.2
  rw [simple.choose] at choose
  cases choose

theorem accepts_eq (simple : e.Simple) (mem : pair ∈ e.directs ×ˢ e.indirects) {which : Nat}
    (relation : which ∈ [4, 5]) :
    (e.relation which pair).any Answer.accepts = (e.relation which pair).any Answer.grants := by
  have silent := simple.silent pair mem which relation
  cases answered : e.relation which pair with
  | none => rfl
  | some answer =>
      rw [answered] at silent
      exact Answer.accepts_eq_of_silent silent

theorem isComplete_eq (simple : e.Simple) (mem : pair ∈ e.directs ×ˢ e.indirects) :
    e.isComplete pair = ((e.relation 4 pair).any Answer.grants &&
      (e.relation 5 pair).any Answer.grants) := by
  rw [← simple.accepts_eq mem (by decide), ← simple.accepts_eq mem (by decide), isComplete,
    firstAnswer, secondAnswer]
  cases e.indirectUnique with
  | true => rfl
  | false => exact Bool.and_comm _ _

theorem complete_eq_related (simple : e.Simple) : e.complete = e.related := by
  rw [e.complete_eq, simple.targets_eq, related]
  exact List.filter_congr fun pair mem => simple.isComplete_eq mem

theorem tried_eq (simple : e.Simple) : e.tried = e.related := by
  have none : e.last = none := by
    rw [last, if_neg simple.not_chooses, if_neg]
    rw [simple.directOrdinal]
    exact lt_irrefl 0
  rw [tried, none, simple.complete_eq_related]
  exact List.filter_eq_self.mpr fun _ _ => rfl

theorem fromOrdinal_eq (simple : e.Simple) (pairs : List (Nat × Nat)) :
    e.fromOrdinal pairs = pairs := by
  rw [fromOrdinal, simple.directOrdinal]
  exact List.drop_zero

/-- No message is cached. -/
theorem not_flagged (simple : e.Simple) (mem : pair ∈ e.related) :
    e.isFlagged pair = false := by
  have accepts (which : Nat) (relation : which ∈ [4, 5]) :=
    simple.accepts_eq (List.mem_filter.mp mem).1 relation
  rw [isFlagged, Answer.any_warns, secondAnswer]
  cases e.indirectUnique with
  | true =>
      rw [if_pos rfl, accepts 5 (by decide)]
      simp
  | false =>
      rw [if_neg Bool.false_ne_true, accepts 4 (by decide)]
      simp

/-- A pair that is not related leaves an error. -/
theorem not_unblamed (simple : e.Simple) (someDirect : e.directs ≠ [])
    (someIndirect : e.indirects ≠ []) (none : e.related = []) : ¬ e.Unblamed := by
  intro unblamed
  have rows_ : e.rows = e.directs := if_neg simple.not_chooses
  obtain ⟨pair, final⟩ : ∃ pair, (e.rows ×ˢ e.targets).getLast? = some pair :=
    ⟨_, List.getLast?_eq_some_getLast
      (rows_product_ne_nil someDirect (simple.targets_eq ▸ someIndirect))⟩
  have mem := List.mem_of_getLast? final
  rw [rows_] at mem
  have listed : pair ∈ e.complete := by
    rw [e.complete_eq]
    exact List.mem_filter.mpr ⟨mem, unblamed.2 pair final⟩
  rw [simple.complete_eq_related, none] at listed
  exact List.not_mem_nil listed

theorem admitted_iff (simple : e.Simple) (someDirect : e.directs ≠ [])
    (someIndirect : e.indirects ≠ []) : e.Admitted ↔ e.related ≠ [] ∧ e.Clear e.related := by
  constructor
  · intro admitted
    have clear := admitted.clear
    rw [simple.tried_eq] at clear
    refine ⟨fun none => ?_, clear⟩
    refine simple.not_unblamed someDirect someIndirect none (admitted.uncounted ?_)
    rw [simple.fromOrdinal_eq, simple.tried_eq, none]
  · rintro ⟨related, clear⟩
    constructor
    · rw [simple.targets_eq]
      exact someIndirect
    · rw [simple.tried_eq]
      exact clear
    · intro _ _
      rw [simple.tried_eq, simple.complete_eq_related]
    · intro none
      rw [simple.fromOrdinal_eq, simple.tried_eq] at none
      exact absurd none related

end Simple

/-- The pairs are resolved as they are related. -/
structure Resolved (e : TwoObjects a) : Prop where
  accepted : e.Accepted ↔ e.related ≠ [] ∧ (e.directUnique = true → Constant Prod.fst e.related) ∧
    (e.indirectUnique = true → Constant Prod.snd e.related)
  direct : e.directUnique = true → e.Accepted →
    ∀ pair ∈ e.related, e.receives e.directSlot = some pair.1
  indirect : e.indirectUnique = true → e.Accepted →
    ∀ pair ∈ e.related, e.receives e.indirectSlot = some pair.2
  directs : e.Accepted → ∀ d, d ∈ e.receivesAll e.directSlot ↔ ∃ i, (d, i) ∈ e.related
  indirects : e.Accepted → ∀ i, i ∈ e.receivesAll e.indirectSlot ↔ ∃ d, (d, i) ∈ e.related

theorem resolved (e : TwoObjects a) (simple : e.Simple) (someDirect : e.directs ≠ [])
    (someIndirect : e.indirects ≠ []) : e.Resolved := by
  have related_iff : e.Accepted ↔ e.related ≠ [] ∧ e.Clear e.related := by
    rw [accepted_iff_admitted someDirect someIndirect, simple.admitted_iff someDirect someIndirect]
  have direct_ (accepted : e.Accepted) (unique : e.directUnique = true) :
      Constant Prod.fst e.related := by
    rw [← simple.fromOrdinal_eq e.related]
    exact (related_iff.mp accepted).2.direct unique
  constructor
  · refine related_iff.trans (and_congr_right fun _ => ?_)
    constructor
    · rintro ⟨indirect, direct⟩
      rw [simple.fromOrdinal_eq] at direct
      exact ⟨direct, indirect⟩
    · rintro ⟨direct, indirect⟩
      refine ⟨indirect, ?_⟩
      rw [simple.fromOrdinal_eq]
      exact direct
  · intro unique accepted pair mem
    rw [receives_direct unique accepted, simple.fromOrdinal_eq, simple.tried_eq]
    exact (direct_ accepted unique).getLast?_map mem
  · intro unique accepted pair mem
    rw [receives_indirect unique accepted, simple.tried_eq]
    exact ((related_iff.mp accepted).2.indirect unique).getLast?_map mem
  · intro accepted d
    rw [receivesAll_direct accepted, simple.fromOrdinal_eq, simple.tried_eq]
    exact exists_congr fun i => and_iff_left_of_imp simple.not_flagged
  · intro accepted i
    rw [receivesAll_indirect accepted, simple.tried_eq]
    exact exists_congr fun d => and_iff_left_of_imp simple.not_flagged

/-- A stone, a ball and a box; the ball does not go into the box. -/
def putting : Attempt where
  callbacks := {
    call := fun _ _ args =>
      match args with
      | .object 1 :: .object 2 :: _ => some (.number 0)
      | _ => some (.number 1)
    theShort := fun _ => none
    errorMessage := fun _ => .number 0 }
  objects := fun _ => {}
  nicks := []
  caller := 0
  literals := []
  rawInput := str "put it box"
  words := []
  verb := str "put"
  node := ⟨[.object {}, .object {}], [], 1, 0, true, 2, []⟩

/-- The first word is the stone or the ball, the second one the box. -/
def putIt : TwoObjects putting where
  session := {
    loaded := ⟨[0, 1, 2], [], [], [], none, fun _ => none, 0⟩
    shared := [⟨.object {}, 1, 1, 0, [true, true, false], none⟩,
      ⟨.object {}, 2, 2, 0, [false, false, true], none⟩]
    foundLevel := 2 }
  state := { numMatches := 2, numObjs := 2 }
  directSlot := 0
  indirectSlot := 1
  errorless := rfl
  numObjs := rfl
  ordered := by decide
  inside := by decide
  others k early notDirect notIndirect := by
    change k < 2 at early
    omega
  directMatch := ⟨⟨{}, rfl⟩, by decide, fun _ => rfl, by decide⟩
  indirectMatch := ⟨⟨{}, rfl⟩, by decide, fun _ => rfl, by decide⟩
  first := rfl
  handler := rfl

example : putIt.Entered { putIt.session with foundLevel := 0 } putIt.state :=
  ⟨by decide, rfl⟩

theorem resolved_putIt : putIt.Simple ∧ putIt.directs ≠ [] ∧ putIt.indirects ≠ [] ∧
    putIt.Resolved := by
  have simple : putIt.Simple := ⟨rfl, rfl, rfl, by decide +kernel⟩
  have someDirect : putIt.directs ≠ [] := by decide +kernel
  have someIndirect : putIt.indirects ≠ [] := by decide +kernel
  exact ⟨simple, someDirect, someIndirect, putIt.resolved simple someDirect someIndirect⟩

end TwoObjects

end Kjdmud.Efun.ParserPackage
