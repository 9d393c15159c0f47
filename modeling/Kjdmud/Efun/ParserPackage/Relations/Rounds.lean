import Kjdmud.Efun.ParserPackage.Relations.Scan

/-!
# The rounds of an interpretation

The checks of the two matches sift their candidates: those that are granted stay.  A singular
match that loses the last one is an error.  Without an error the pairs are scanned.
-/

namespace Kjdmud.Efun.ParserPackage

open Attempt SentenceSession

/-! ## What a check leaves alone -/

theorem members_refuse (bits : ObjBitset) (i : Nat) :
    members (bits.set i false) = (members bits).filter (· ≠ i) := by
  rw [members, members, List.length_set, List.filter_filter]
  refine List.filter_congr fun j inside => ?_
  rw [List.getElem?_set]
  by_cases same : i = j
  · rw [if_pos same, if_pos (same ▸ List.mem_range.mp inside)]
    simp [same]
  · rw [if_neg same]
    simp [Ne.symm same]

/-- Two sessions differ in the candidates and the number of a match, and in what the probes
leave. -/
structure Probed (slot : Nat) (session session' : SentenceSession) : Prop where
  loaded : session'.loaded = session.loaded
  length : session'.shared.length = session.shared.length
  other : ∀ k, k ≠ slot → session'.slot k = session.slot k
  token : (session'.slot slot).token = (session.slot slot).token
  first : (session'.slot slot).first = (session.slot slot).first
  last : (session'.slot slot).last = (session.slot slot).last
  ordinal : (session'.slot slot).ordinal = (session.slot slot).ordinal

namespace Probed

variable {slot : Nat} {session session' session'' : SentenceSession}

theorem of_shared (loaded : session'.loaded = session.loaded)
    (shared : session'.shared = session.shared) : Probed slot session session' where
  loaded := loaded
  length := by rw [shared]
  other k _ := slot_of_shared shared k
  token := by rw [slot_of_shared shared]
  first := by rw [slot_of_shared shared]
  last := by rw [slot_of_shared shared]
  ordinal := by rw [slot_of_shared shared]

theorem trans (before : Probed slot session session') (after : Probed slot session' session'') :
    Probed slot session session'' where
  loaded := after.loaded.trans before.loaded
  length := after.length.trans before.length
  other k apart := (after.other k apart).trans (before.other k apart)
  token := after.token.trans before.token
  first := after.first.trans before.first
  last := after.last.trans before.last
  ordinal := after.ordinal.trans before.ordinal

theorem modify (change : SentenceMatch → SentenceMatch)
    (token : ∀ m, (change m).token = m.token) (first : ∀ m, (change m).first = m.first)
    (last : ∀ m, (change m).last = m.last) (ordinal : ∀ m, (change m).ordinal = m.ordinal)
    (session : SentenceSession) : Probed slot session (session.modify slot change) := by
  have length : (session.modify slot change).shared.length = session.shared.length :=
    List.length_modify change session.shared slot
  by_cases inside : slot < session.shared.length
  · have self := slot_modify_self change inside
    exact ⟨rfl, length, fun k apart => slot_modify_other change apart,
      by rw [self, token], by rw [self, first], by rw [self, last], by rw [self, ordinal]⟩
  · have same : session.modify slot change = session := by
      rw [SentenceSession.modify, List.modify_eq_self (Nat.le_of_not_lt inside)]
    rw [same]
    exact .of_shared rfl rfl

theorem refuse (i : Nat) (session : SentenceSession) :
    Probed slot session (session.refuse slot i) :=
  modify (fun m => { m with obs := m.obs.set i false }) (fun _ => rfl) (fun _ => rfl)
    (fun _ => rfl) (fun _ => rfl) session

theorem choose (number : Option Nat) (session : SentenceSession) :
    Probed slot session (session.choose slot number) :=
  modify (fun m => { m with number := number }) (fun _ => rfl) (fun _ => rfl)
    (fun _ => rfl) (fun _ => rfl) session

theorem withError (probed : Probed slot session session') (e : ParserErrorInfo) :
    Probed slot session (session'.withError e) :=
  probed.trans (.of_shared rfl rfl)

theorem firsts (probed : Probed slot session session') (k : Nat) :
    (session'.slot k).first = (session.slot k).first := by
  by_cases same : k = slot
  · rw [same, probed.first]
  · rw [probed.other k same]

theorem lasts (probed : Probed slot session session') (k : Nat) :
    (session'.slot k).last = (session.slot k).last := by
  by_cases same : k = slot
  · rw [same, probed.last]
  · rw [probed.other k same]

theorem tokens (probed : Probed slot session session') (k : Nat) :
    (session'.slot k).token = (session.slot k).token := by
  by_cases same : k = slot
  · rw [same, probed.token]
  · rw [probed.other k same]

/-- The candidates of a match are asked the same all the time. -/
theorem alike {a : Attempt} {which : Nat} (probed : Probed slot session session')
    (own : which < 4)
    (apart : which = 2 → ∀ k, firstObject a.node.tokens 0 = some k → k ≠ slot) :
    a.Alike which session session' where
  objects := by rw [probed.loaded]
  first := probed.firsts
  last := probed.lasts
  pair relation := by omega
  direct two k found := probed.other k (apart two k found)

end Probed

/-! ## Sifting -/

section

variable {a : Attempt} {slot which : Nat} {s : MatchState}
  {base session session' session₁ : SentenceSession} {i : Nat} {numbers : List Nat}

/-- A candidate is not asked yet, or granted. -/
def stays (a : Attempt) (base : SentenceSession) (which : Nat) (numbers : List Nat) (i : Nat) :
    Bool :=
  i ∉ numbers || (a.answer base which i).any Answer.grants

/-- The candidates of these numbers are sifted. -/
structure Sifted (a : Attempt) (slot which : Nat) (base : SentenceSession) (numbers : List Nat)
    (session session' : SentenceSession) : Prop where
  probed : Probed slot base session'
  obs : members (session'.slot slot).obs =
    (members (session.slot slot).obs).filter (stays a base which numbers)

theorem Sifted.refl (probed : Probed slot base session) :
    Sifted a slot which base [] session session := by
  refine ⟨probed, (List.filter_eq_self.mpr fun i _ => ?_).symm⟩
  rw [stays, Bool.or_eq_true]
  exact .inl (decide_eq_true List.not_mem_nil)

theorem Sifted.keep (session₁ : SentenceSession)
    (granted : (a.answer base which i).any Answer.grants = true)
    (same : (session₁.slot slot).obs = (session.slot slot).obs)
    (sifted : Sifted a slot which base numbers session₁ session') :
    Sifted a slot which base (i :: numbers) session session' := by
  refine ⟨sifted.probed, ?_⟩
  rw [sifted.obs, same]
  refine List.filter_congr fun j _ => ?_
  rw [stays, stays]
  by_cases here : j = i
  · rw [here, granted, Bool.or_true, Bool.or_true]
  · simp [here]

theorem Sifted.drop (session₁ : SentenceSession)
    (refused : (a.answer base which i).any Answer.grants = false)
    (inside : slot < session₁.shared.length)
    (same : (session₁.slot slot).obs = (session.slot slot).obs)
    (sifted : Sifted a slot which base numbers (session₁.refuse slot i) session') :
    Sifted a slot which base (i :: numbers) session session' := by
  refine ⟨sifted.probed, ?_⟩
  rw [sifted.obs, SentenceSession.refuse, slot_modify_self _ inside, members_refuse, same,
    List.filter_filter]
  refine List.filter_congr fun j _ => ?_
  rw [stays, stays]
  by_cases here : j = i
  · rw [here, refused]
    simp
  · simp [here]

/-- What the loops of the checks begin with. -/
structure Sifts (a : Attempt) (slot which : Nat) (s : MatchState) (base : SentenceSession) :
    Prop where
  errorless : s.numErrors = 0
  handler : a.destructed a.node.handler = false
  own : which < 3
  apart : which = 2 → ∀ k, firstObject a.node.tokens 0 = some k → k ≠ slot
  inside : slot < base.shared.length

/-- A candidate is asked in the course of a check. -/
theorem Sifts.probe (sifts : Sifts a slot which s base) (probed : Probed slot base session)
    (live : (a.live base.loaded.objects i).isSome) :
    ∃ e, a.parallelCheckFunctions session s i which =
        ((a.answer base which i).any Answer.accepts, session.withError e) ∧
      (e = .none ↔ (a.answer base which i).any Answer.grants = true) := by
  have own := sifts.own
  rw [← (probed.alike (by omega) sifts.apart).answer (by omega) i]
  refine parallelCheckFunctions_eq (by omega) sifts.errorless ?_ sifts.handler
  rw [probed.loaded]
  exact live

/-- No candidate is granted, and nothing is to be said about that. -/
def Mute (a : Attempt) (which : Nat) (base : SentenceSession) (numbers : List Nat) : Prop :=
  ∀ i ∈ numbers, (a.answer base which i).any Answer.grants = false

theorem dependentLoop_spec (sifts : Sifts a slot which s base) (probed : Probed slot base session)
    (live : ∀ i ∈ numbers, (a.live base.loaded.objects i).isSome) (foundOne : Bool)
    (errinfo : ParserErrorInfo) :
    ∃ errinfo' session', a.dependentLoop slot which s numbers foundOne errinfo session =
        (foundOne || numbers.any (fun i => (a.answer base which i).any Answer.grants),
          errinfo', session') ∧
      Sifted a slot which base numbers session session' ∧
      (errinfo ≠ .none → errinfo' ≠ .none) ∧
      (Mute a which base numbers →
        (numbers = [] → errinfo ≠ .none ∨ session.parallelError ≠ .none) →
        errinfo' ≠ .none ∨ session'.parallelError ≠ .none) := by
  induction numbers generalizing foundOne errinfo session with
  | nil =>
      refine ⟨errinfo, session, ?_, .refl probed, id, fun _ left => left rfl⟩
      rw [List.any_nil, Bool.or_false]
      rfl
  | cons i numbers ih =>
      have others : ∀ j ∈ numbers, (a.live base.loaded.objects j).isSome :=
        fun j mem => live j (List.mem_cons_of_mem i mem)
      obtain ⟨e, probe, silent⟩ := sifts.probe probed (live i List.mem_cons_self)
      have inside : slot < session.shared.length := by
        rw [probed.length]
        exact sifts.inside
      rw [dependentLoop, probe, List.any_cons]
      cases granted : (a.answer base which i).any Answer.grants with
      | true =>
          obtain rfl : e = .none := silent.mpr granted
          rw [Answer.any_accepts_of_grants granted]
          dsimp only
          rw [cacheLastParallelError_of_none rfl]
          dsimp only
          have probed' : Probed slot base
              (if foundOne then session.withError .none
                else (session.withError .none).choose slot (some i)) := by
            split
            · exact probed.withError .none
            · exact (probed.withError .none).trans (.choose (some i) _)
          have same : ((if foundOne then session.withError .none
              else (session.withError .none).choose slot (some i)).slot slot).obs =
              (session.slot slot).obs := by
            split
            · rfl
            · exact slot_choose_obs (some i) slot
          obtain ⟨errinfo', session', run, sifted, keeps, mute⟩ := ih probed' others true errinfo
          refine ⟨errinfo', session', ?_, sifted.keep _ granted same, keeps, fun none => ?_⟩
          · rw [run, Bool.true_or, Bool.or_true]
          · have refused := none i List.mem_cons_self
            rw [granted] at refused
            cases refused
      | false =>
          have said : e ≠ .none := fun none => by
            rw [silent.mp none] at granted
            cases granted
          rw [Bool.false_or]
          have probed' (e' : ParserErrorInfo) :
              Probed slot base ((session.withError e').refuse slot i) :=
            (probed.withError e').trans (.refuse i _)
          cases accepted : (a.answer base which i).any Answer.accepts with
          | true =>
              dsimp only
              have said' : (session.withError e).parallelError ≠ .none := said
              rw [cacheLastParallelError_of_ne said']
              dsimp only
              obtain ⟨errinfo', session', run, sifted, keeps, -⟩ :=
                ih (probed' .none) others foundOne e
              exact ⟨errinfo', session', run,
                sifted.drop (session.withError .none) granted inside rfl,
                fun _ => keeps said, fun _ _ => .inl (keeps said)⟩
          | false =>
              dsimp only
              obtain ⟨errinfo', session', run, sifted, keeps, mute⟩ :=
                ih (probed' e) others foundOne errinfo
              exact ⟨errinfo', session', run,
                sifted.drop (session.withError e) granted inside rfl, keeps,
                fun none _ => mute (fun j mem => none j (List.mem_cons_of_mem i mem))
                  fun _ => .inr said⟩

theorem saveLastParallelError_of_ne' (said : session.parallelError ≠ .none) (obj : Nat) :
    ∃ session' : SentenceSession, session'.shared = session.shared ∧
      session'.loaded = session.loaded ∧ session.saveLastParallelError obj = (true, session') :=
  ⟨{ session.withError .none with
      parallelErrors := ⟨session.parallelError, obj⟩ :: session.parallelErrors }, rfl, rfl,
    if_neg said⟩

theorem pluralLoop_spec (sifts : Sifts a slot which s base) (probed : Probed slot base session)
    (live : ∀ i ∈ numbers, (a.live base.loaded.objects i).isSome) (foundOne : Bool) :
    ∃ session', a.pluralLoop slot which s numbers foundOne session =
        (foundOne || numbers.any (fun i => (a.answer base which i).any Answer.grants),
          session') ∧
      Sifted a slot which base numbers session session' := by
  induction numbers generalizing foundOne session with
  | nil =>
      refine ⟨session, ?_, .refl probed⟩
      rw [List.any_nil, Bool.or_false]
      rfl
  | cons i numbers ih =>
      have others : ∀ j ∈ numbers, (a.live base.loaded.objects j).isSome :=
        fun j mem => live j (List.mem_cons_of_mem i mem)
      obtain ⟨e, probe, silent⟩ := sifts.probe probed (live i List.mem_cons_self)
      have inside : slot < session.shared.length := by
        rw [probed.length]
        exact sifts.inside
      rw [pluralLoop, probe, List.any_cons]
      cases granted : (a.answer base which i).any Answer.grants with
      | true =>
          obtain rfl : e = .none := silent.mpr granted
          rw [Answer.any_accepts_of_grants granted]
          obtain ⟨session', run, sifted⟩ :=
            ih (probed.withError .none) others true
          refine ⟨session', ?_, sifted.keep (session.withError .none) granted rfl⟩
          rw [Bool.true_or] at run
          rw [Bool.true_or, Bool.or_true, ← run]
          rfl
      | false =>
          have said : e ≠ .none := fun none => by
            rw [silent.mp none] at granted
            cases granted
          rw [Bool.false_or]
          cases accepted : (a.answer base which i).any Answer.accepts with
          | true =>
              dsimp only
              have said' : (session.withError e).parallelError ≠ .none := said
              obtain ⟨saved, shared, loaded, save⟩ := saveLastParallelError_of_ne' said' i
              rw [save]
              have length : saved.shared.length = session.shared.length := by rw [shared]; rfl
              obtain ⟨session', run, sifted⟩ := ih (((probed.withError e).trans
                (.of_shared loaded shared)).trans (.refuse i saved)) others foundOne
              refine ⟨session', run, sifted.drop saved granted (length ▸ inside) ?_⟩
              rw [slot_of_shared shared]
              rfl
          | false =>
              obtain ⟨session', run, sifted⟩ :=
                ih ((probed.withError e).trans (.refuse i _)) others foundOne
              exact ⟨session', run, sifted.drop (session.withError e) granted inside rfl⟩

/-- The candidates that are granted. -/
def granted (a : Attempt) (base : SentenceSession) (which slot : Nat) : List Nat :=
  (members (base.slot slot).obs).filter fun i => (a.answer base which i).any Answer.grants

theorem Sifted.granted (sifted : Sifted a slot which base (members (base.slot slot).obs) base
    session') : members (session'.slot slot).obs = granted a base which slot := by
  rw [sifted.obs, Kjdmud.Efun.ParserPackage.granted]
  refine List.filter_congr fun i mem => ?_
  rw [stays, decide_eq_false (not_not_intro mem), Bool.false_or]

theorem mute_of_granted (none : granted a base which slot = []) :
    Mute a which base (members (base.slot slot).obs) := by
  intro i mem
  rw [← Bool.not_eq_true]
  exact List.filter_eq_nil_iff.mp none i mem

theorem any_granted (a : Attempt) (base : SentenceSession) (which slot : Nat) :
    (members (base.slot slot).obs).any (fun i => (a.answer base which i).any Answer.grants) =
      decide (granted a base which slot ≠ []) := by
  rw [granted, Bool.eq_iff_iff, List.any_eq_true, decide_eq_true_iff, Ne, List.filter_eq_nil_iff]
  push Not
  rfl

/-- The check of a match ends with an error, or the granted candidates are left. -/
theorem checkMatch_spec (sifts : Sifts a slot which s base) (object : ObjectMatch a base slot)
    (two : s.numObjs = 2) :
    (granted a base which slot = [] ∧ ∃ session', a.checkMatch base s which slot =
        (session', { s with numErrors := s.numErrors + 1 })) ∨
      ∃ session', a.checkMatch base s which slot = (session', s) ∧
        Probed slot base session' ∧
        members (session'.slot slot).obs = granted a base which slot ∧
        ((base.slot slot).token.plural = false → granted a base which slot ≠ []) := by
  have start : Probed slot base base := .of_shared rfl rfl
  have whole := any_granted a base which slot
  rw [checkMatch]
  by_cases plural : (base.slot slot).token.plural = true
  · obtain ⟨session', run, sifted⟩ := pluralLoop_spec sifts start object.live false
    rw [if_pos plural, pluralCheckFunctions, run, whole, Bool.false_or]
    have kept {session'' : SentenceSession} (result : session'' = session') :
        Probed slot base session'' ∧
          members (session''.slot slot).obs = granted a base which slot ∧
          ((base.slot slot).token.plural = false → granted a base which slot ≠ []) := by
      rw [result, plural]
      exact ⟨sifted.probed, sifted.granted, Bool.noConfusion⟩
    by_cases none : granted a base which slot = []
    · rw [decide_eq_false (not_not_intro none)]
      dsimp only
      rcases useLastParallelError_cases session' s with ⟨-, eq⟩ | ⟨-, session'', -, eq⟩
      · rw [eq]
        exact .inr ⟨session', rfl, kept rfl⟩
      · rw [eq]
        exact .inl ⟨none, _, rfl⟩
    · rw [decide_eq_true none]
      exact .inr ⟨session', rfl, kept rfl⟩
  · obtain ⟨errinfo, session', run, sifted, -, mute⟩ :=
      dependentLoop_spec sifts start object.live false .none
    rw [if_neg plural, if_pos two, dependentCheckFunctions, run, whole, Bool.false_or]
    by_cases none : granted a base which slot = []
    · rw [decide_eq_false (not_not_intro none)]
      dsimp only
      have said := mute (mute_of_granted none)
        fun empty => absurd empty (object.nonempty (Bool.eq_false_iff.mpr plural))
      rcases useParallelError_cases session' s errinfo with
        ⟨silent, silent', -⟩ | ⟨-, session'', -, eq⟩
      · exact absurd said (by rw [silent, silent']; simp)
      · rw [eq]
        exact .inl ⟨none, _, rfl⟩
    · rw [decide_eq_true none]
      exact .inr ⟨session', rfl, sifted.probed, sifted.granted, fun _ => none⟩

/-- A check takes no error back. -/
theorem checkMatch_errors (two : s.numObjs = 2) (session : SentenceSession) :
    s.numErrors ≤ (a.checkMatch session s which slot).2.numErrors := by
  have more : s.numErrors ≤ s.numErrors + 1 := by omega
  rw [checkMatch, if_pos two]
  split
  · rw [pluralCheckFunctions]
    split
    · exact le_refl _
    · next session' _ =>
        rcases useLastParallelError_cases session' s with ⟨-, eq⟩ | ⟨-, session'', -, eq⟩
        · rw [eq]
        · rw [eq]
          exact more
  · rw [dependentCheckFunctions]
    split
    · exact le_refl _
    · next errinfo session' _ =>
        rcases useParallelError_cases session' s errinfo with ⟨-, -, eq⟩ | ⟨-, session'', -, eq⟩
        · rw [eq]
        · rw [eq]
          exact more

theorem checkMatch_errors_ne (two : s.numObjs = 2) (errors : 0 < s.numErrors)
    (session : SentenceSession) : (a.checkMatch session s which slot).2.numErrors ≠ 0 :=
  (errors.trans_le (checkMatch_errors two session)).ne'

theorem checkMatch_lowersAt (two : s.numObjs = 2) (session : SentenceSession) :
    session.LowersAt slot (a.checkMatch session s which slot).1 := by
  rw [checkMatch, if_pos two]
  split
  · exact pluralCheckFunctions_lowersAt session
  · exact dependentCheckFunctions_lowersAt session

end

/-! ## The matches of an interpretation -/

theorem range_split {i j n : Nat} (ordered : i < j) (inside : j < n) :
    List.range n = List.range i ++
      i :: (List.range' (i + 1) (j - i - 1) ++ j :: List.range' (j + 1) (n - j - 1)) := by
  have behind : j :: List.range' (j + 1) (n - j - 1) = List.range' j (n - j) := by
    rw [← List.range'_succ]
    congr 1
    omega
  have between : i :: List.range' (i + 1) (j - i - 1) = List.range' i (j - i) := by
    rw [← List.range'_succ]
    congr 1
    omega
  rw [behind, ← List.cons_append, between, List.range_eq_range', List.range_eq_range']
  have upper : List.range' i (j - i) ++ List.range' j (n - j) = List.range' i (n - i) := by
    have whole := @List.range'_append_1 i (j - i) (n - j)
    rw [show i + (j - i) = j by omega, show j - i + (n - j) = n - i by omega] at whole
    exact whole
  have lower : List.range' 0 i ++ List.range' i (n - i) = List.range' 0 n := by
    have whole := @List.range'_append_1 0 i (n - i)
    rw [Nat.zero_add, show i + (n - i) = n by omega] at whole
    exact whole
  rw [upper, lower]

/-- No object is here. -/
def IsText (m : SentenceMatch) : Prop :=
  m.token = .str ∨ m.token = .wrd

section

variable {a : Attempt} {session : SentenceSession} {s : MatchState} {which : Nat}

theorem checkMatches_skip {slots : List Nat} (texts : ∀ k ∈ slots, IsText (session.slot k))
    (early : which < 3) (rest : List Nat) :
    a.checkMatches (slots ++ rest) which session s = a.checkMatches rest which session s := by
  induction slots with
  | nil => rfl
  | cons k slots ih =>
      have other := ih fun k' mem => texts k' (List.mem_cons_of_mem k mem)
      rw [List.cons_append, checkMatches, if_neg (by omega)]
      rcases texts k List.mem_cons_self with text | text
      · rw [text]
        exact other
      · rw [text]
        exact other

theorem checkMatches_object {slot : Nat} {modifiers : Modifiers}
    (object : (session.slot slot).token = .object modifiers) (early : which < 3)
    (rest : List Nat) :
    a.checkMatches (slot :: rest) which session s =
      a.checkMatches rest (which + 1) (a.checkMatch session s which slot).1
        (a.checkMatch session s which slot).2 := by
  rw [checkMatches, if_neg (by omega), object]

theorem checkMatches_full (slots : List Nat) :
    a.checkMatches slots 3 session s = (session, s) := by
  cases slots with
  | nil => rfl
  | cons slot slots => rw [checkMatches, if_pos (le_refl 3)]

theorem pairOf_skip {ms : List SentenceMatch} (texts : ∀ m ∈ ms, IsText m)
    (rest : List SentenceMatch) (slot : Nat) (found : Option Nat × Option Nat) :
    pairOf (ms ++ rest) slot found = pairOf rest (slot + ms.length) found := by
  induction ms generalizing slot with
  | nil => rfl
  | cons m ms ih =>
      have other := ih (fun m' mem => texts m' (List.mem_cons_of_mem m mem)) (slot + 1)
      rw [List.cons_append, List.length_cons, pairOf, Nat.add_comm ms.length, ← Nat.add_assoc,
        ← other]
      rcases texts m List.mem_cons_self with text | text
      · rw [text]
      · rw [text]

theorem pairOf_object {m : SentenceMatch} {modifiers : Modifiers}
    (object : m.token = .object modifiers) (rest : List SentenceMatch) (slot : Nat)
    (direct indirect : Option Nat) :
    pairOf (m :: rest) slot (direct, indirect) = pairOf rest (slot + 1)
      (if direct.isNone then (some slot, indirect) else (direct, some slot)) := by
  rw [pairOf, object]

theorem take_shared {n : Nat} (inside : n ≤ session.shared.length) :
    session.shared.take n = (List.range n).map session.slot := by
  apply List.ext_getElem?
  intro k
  rw [List.getElem?_take, List.getElem?_map]
  by_cases early : k < n
  · rw [if_pos early, List.getElem?_range early, Option.map_some, SentenceSession.slot,
      List.getElem?_eq_getElem (early.trans_le inside)]
    rfl
  · rw [if_neg early, List.getElem?_eq_none (by rw [List.length_range]; omega)]
    rfl

end

namespace TwoObjects

variable {a : Attempt} (e : TwoObjects a)

theorem inside_of_text {session : SentenceSession} {k : Nat} (text : IsText (session.slot k)) :
    k < session.shared.length := by
  by_contra outside
  rw [IsText, SentenceSession.slot, List.getElem?_eq_none (Nat.le_of_not_lt outside)] at text
  rcases text with text | text <;> cases text

theorem matches_inside : e.state.numMatches ≤ e.session.shared.length := by
  have inside := e.inside
  obtain ⟨n, final⟩ : ∃ n, e.state.numMatches = n + 1 := ⟨e.state.numMatches - 1, by omega⟩
  rw [final]
  by_cases isIndirect : n = e.indirectSlot
  · obtain ⟨modifiers, object⟩ := e.indirectMatch.object
    rw [isIndirect]
    exact inside_of_object object
  · exact inside_of_text (e.others n (by omega) (by have := e.ordered; omega) isIndirect)

theorem lowersAt_between : e.cleared.LowersAt e.directSlot e.between :=
  checkMatch_lowersAt e.numObjs e.cleared

theorem slot_between {k : Nat} (apart : k ≠ e.directSlot) :
    e.between.slot k = e.session.slot k :=
  e.lowersAt_between.other k apart

theorem apart : e.indirectSlot ≠ e.directSlot :=
  e.ordered.ne'

theorem texts {k : Nat} (here : k ∈ List.range e.directSlot ∨
    k ∈ List.range' (e.directSlot + 1) (e.indirectSlot - e.directSlot - 1)) :
    k ≠ e.directSlot ∧ IsText (e.session.slot k) := by
  have ordered := e.ordered
  have inside := e.inside
  have place : k < e.indirectSlot ∧ k ≠ e.directSlot := by
    rcases here with before | between
    · have := List.mem_range.mp before
      omega
    · have := List.mem_range'_1.mp between
      omega
  exact ⟨place.2, e.others k (by omega) place.2 place.1.ne⟩

/-- The two matches are checked one after the other. -/
theorem checkMatches_eq :
    a.checkMatches (List.range e.state.numMatches) 1 e.cleared e.state =
      a.checkMatch e.between (a.checkMatch e.cleared e.state 1 e.directSlot).2 2
        e.indirectSlot := by
  obtain ⟨modifiers, object⟩ := e.directMatch.object
  obtain ⟨modifiers', object'⟩ := e.indirectMatch.object
  have before : ∀ k ∈ List.range e.directSlot, IsText (e.cleared.slot k) :=
    fun k mem => (e.texts (.inl mem)).2
  have first : (e.cleared.slot e.directSlot).token = .object modifiers := object
  have middle : ∀ k ∈ List.range' (e.directSlot + 1) (e.indirectSlot - e.directSlot - 1),
      IsText (e.between.slot k) := by
    intro k mem
    rw [e.slot_between (e.texts (.inr mem)).1]
    exact (e.texts (.inr mem)).2
  have second : (e.between.slot e.indirectSlot).token = .object modifiers' := by
    rw [e.slot_between e.apart]
    exact object'
  rw [range_split e.ordered e.inside, checkMatches_skip before (by decide),
    checkMatches_object first (by decide), ← between, checkMatches_skip middle (by decide),
    checkMatches_object second (by decide), checkMatches_full]

/-- The session in which the pairs are scanned. -/
structure Sieved (e : TwoObjects a) (session : SentenceSession) : Prop where
  relating : e.Relating session
  loaded : session.loaded = e.session.loaded
  length : session.shared.length = e.session.shared.length
  directs : members (session.slot e.directSlot).obs = e.directs
  indirects : members (session.slot e.indirectSlot).obs = e.indirects
  directOrdinal : (session.slot e.directSlot).ordinal = e.direct.ordinal
  indirectOrdinal : (session.slot e.indirectSlot).ordinal = e.indirect.ordinal
  someDirect : e.directUnique = true → e.directs ≠ []
  someIndirect : e.indirectUnique = true → e.indirects ≠ []

theorem rounds :
    (e.outcome.2.numErrors ≠ 0 ∧ (e.directs = [] ∨ e.indirects = [])) ∨
      ∃ session, e.Sieved session ∧ e.outcome = a.checkObjectRelations session e.state := by
  have errorless := e.errorless
  have first : Sifts a e.directSlot 1 e.state e.cleared :=
    ⟨errorless, e.handler, by decide, fun two => absurd two (by decide),
      inside_of_object e.directMatch.object.choose_spec⟩
  have object : ObjectMatch a e.cleared e.directSlot :=
    ⟨e.directMatch.object, e.directMatch.live, e.directMatch.plain, e.directMatch.nonempty⟩
  have run : e.outcome =
      if (a.checkMatch e.between (a.checkMatch e.cleared e.state 1 e.directSlot).2 2
          e.indirectSlot).2.numObjs = 2 ∧
        (a.checkMatch e.between (a.checkMatch e.cleared e.state 1 e.directSlot).2 2
          e.indirectSlot).2.numErrors = 0 then
        a.checkObjectRelations (a.checkMatch e.between
            (a.checkMatch e.cleared e.state 1 e.directSlot).2 2 e.indirectSlot).1
          (a.checkMatch e.between (a.checkMatch e.cleared e.state 1 e.directSlot).2 2
            e.indirectSlot).2
      else a.checkMatch e.between (a.checkMatch e.cleared e.state 1 e.directSlot).2 2
        e.indirectSlot := by
    rw [← e.checkMatches_eq]
    rfl
  rcases checkMatch_spec first object e.numObjs with
    ⟨none, session, checked⟩ | ⟨session₁, checked, probed, obs, nonempty⟩
  · have oneMore : 0 < e.state.numErrors + 1 := by omega
    rw [checked] at run
    dsimp only at run
    have errors : (a.checkMatch e.between
        { e.state with numErrors := e.state.numErrors + 1 } 2 e.indirectSlot).2.numErrors ≠ 0 :=
      checkMatch_errors_ne (s := { e.state with numErrors := e.state.numErrors + 1 })
        e.numObjs oneMore e.between
    rw [if_neg fun both => errors both.2] at run
    rw [run]
    exact .inl ⟨errors, .inl none⟩
  · have between_ : e.between = session₁ := by rw [between, checked]
    rw [← between_] at probed obs
    rw [checked] at run
    dsimp only at run
    have inside : e.indirectSlot < e.between.shared.length := by
      rw [probed.length]
      exact inside_of_object e.indirectMatch.object.choose_spec
    have second : Sifts a e.indirectSlot 2 e.state e.between := by
      refine ⟨errorless, e.handler, by decide, fun _ k found => ?_, inside⟩
      rw [e.first] at found
      obtain rfl : e.directSlot = k := Option.some.inj found
      exact e.apart.symm
    have indirect_ : e.between.slot e.indirectSlot = e.session.slot e.indirectSlot :=
      e.slot_between e.apart
    have object' : ObjectMatch a e.between e.indirectSlot := by
      have «match» := e.indirectMatch
      constructor
      · rw [indirect_]
        exact «match».object
      · rw [indirect_, probed.loaded]
        exact «match».live
      · rw [indirect_]
        exact «match».plain
      · rw [indirect_]
        exact «match».nonempty
    have granted_ : granted a e.between 2 e.indirectSlot = e.indirects := by
      rw [granted, indirect_]
      rfl
    rcases checkMatch_spec second object' e.numObjs with
      ⟨none, session, checked'⟩ | ⟨session₂, checked', probed', obs', nonempty'⟩
    · rw [checked'] at run
      have errors : e.state.numErrors + 1 ≠ 0 := by omega
      rw [if_neg fun both => errors both.2] at run
      rw [run]
      exact .inl ⟨errors, .inr (granted_ ▸ none)⟩
    · rw [checked'] at run
      rw [if_pos ⟨e.numObjs, errorless⟩] at run
      refine .inr ⟨session₂, ?_, run⟩
      constructor
      · exact ⟨by rw [probed'.loaded, probed.loaded]; rfl,
          fun k => (probed'.firsts k).trans (probed.firsts k),
          fun k => (probed'.lasts k).trans (probed.lasts k),
          fun k => (probed'.tokens k).trans (probed.tokens k)⟩
      · exact probed'.loaded.trans probed.loaded
      · exact probed'.length.trans probed.length
      · rw [probed'.other _ e.apart.symm, obs]
        rfl
      · rw [obs', granted_]
      · rw [probed'.other _ e.apart.symm, probed.ordinal]
        rfl
      · rw [probed'.ordinal, indirect_]
        rfl
      · intro unique
        exact nonempty ((Bool.not_eq_true' _).mp unique)
      · intro unique
        rw [← granted_]
        refine nonempty' ?_
        rw [indirect_]
        exact (Bool.not_eq_true' _).mp unique

end TwoObjects

end Kjdmud.Efun.ParserPackage
