import Kjdmud.Efun.ParserPackage.Relations

/-!
# The scan over the pairs

`checkObjectRelations` goes over the pairs that are left, the direct object first.  What it
holds at any time is what it has made of the complete pairs so far; that it comes through says
that no two of them compete.
-/

namespace Kjdmud.Efun.ParserPackage

open Attempt SentenceSession

/-! ## Lists -/

theorem drop_concat {α : Type*} (n : Nat) (l : List α) (x : α) :
    (l ++ [x]).drop n = l.drop n ++ if n ≤ l.length then [x] else [] := by
  rw [List.drop_append]
  by_cases reached : n ≤ l.length
  · rw [if_pos reached, Nat.sub_eq_zero_of_le reached, List.drop_zero]
  · have short : [x].length ≤ n - l.length := by
      rw [List.length_singleton]
      omega
    rw [if_neg reached, List.drop_eq_nil_of_le short]

/-- All elements are alike. -/
def Constant {α β : Type*} (f : α → β) (l : List α) : Prop :=
  ∀ x ∈ l, ∀ y ∈ l, f x = f y

theorem Constant.left {α β : Type*} {f : α → β} {l l' : List α} (constant : Constant f (l ++ l')) :
    Constant f l :=
  fun x mem y mem' => constant x (List.mem_append_left l' mem) y (List.mem_append_left l' mem')

theorem Constant.getLast?_map {α β : Type*} {f : α → β} {l : List α} (constant : Constant f l)
    {x : α} (mem : x ∈ l) : l.getLast?.map f = some (f x) := by
  have final := List.getLast?_eq_some_getLast (List.ne_nil_of_mem mem)
  rw [final, Option.map_some, constant _ (List.mem_of_getLast? final) x mem]

theorem constant_concat {α β : Type*} {f : α → β} {l : List α} (constant : Constant f l) (x : α) :
    Constant f (l ++ [x]) ↔ ∀ y, l.getLast? = some y → f y = f x := by
  constructor
  · intro all y last
    exact all y (List.mem_append_left [x] (List.mem_of_getLast? last)) x
      (List.mem_append_right l List.mem_cons_self)
  · intro same
    have before : ∀ y ∈ l, f y = f x := by
      intro y mem
      obtain ⟨z, last⟩ : ∃ z, l.getLast? = some z :=
        ⟨_, List.getLast?_eq_some_getLast (List.ne_nil_of_mem mem)⟩
      rw [constant y mem z (List.mem_of_getLast? last), same z last]
    intro y mem z mem'
    rcases List.mem_append.mp mem with left | right
    · rcases List.mem_append.mp mem' with left' | right'
      · exact constant y left z left'
      · rw [List.mem_singleton.mp right']
        exact before y left
    · rw [List.mem_singleton.mp right]
      rcases List.mem_append.mp mem' with left' | right'
      · exact (before z left').symm
      · rw [List.mem_singleton.mp right']

namespace TwoObjects

variable {a : Attempt} (e : TwoObjects a)

/-! ## Pairs -/

def slots : PairSlots where
  direct := e.directSlot
  indirect := e.indirectSlot
  directUnique := e.directUnique
  indirectUnique := e.indirectUnique

/-- Which object of a pair is asked first depends on the number of the indirect match. -/
def firstAnswer (pair : Nat × Nat) : Option Answer :=
  e.relation (if e.indirectUnique then 4 else 5) pair

def secondAnswer (pair : Nat × Nat) : Option Answer :=
  e.relation (if e.indirectUnique then 5 else 4) pair

/-- `RelationComplete`: both relational probes accept the pair. -/
def isComplete (pair : Nat × Nat) : Bool :=
  (e.firstAnswer pair).any Answer.accepts && (e.secondAnswer pair).any Answer.accepts

/-- `ErrorRelation` of a complete pair: a message of the second probe.  One of the first is not
kept. -/
def isFlagged (pair : Nat × Nat) : Bool :=
  (e.firstAnswer pair).any Answer.grants && (e.secondAnswer pair).any Answer.warns

/-- A message is cached. -/
def isCached (pair : Nat × Nat) : Bool :=
  (e.firstAnswer pair).any Answer.warns || e.isFlagged pair

/-- The pairs of a direct object that are complete. -/
def row (indirects : List Nat) (i : Nat) : List (Nat × Nat) :=
  (indirects.map (Prod.mk i)).filter e.isComplete

/-- The pairs that are counted: those from the ordinal on. -/
def fromOrdinal (pairs : List (Nat × Nat)) : List (Nat × Nat) :=
  pairs.drop (e.direct.ordinal.toNat - 1)

/-- No two pairs compete. -/
structure Clear (pairs : List (Nat × Nat)) : Prop where
  indirect : e.indirectUnique → Constant Prod.snd pairs
  direct : e.directUnique → Constant Prod.fst (e.fromOrdinal pairs)

/-- What the scan holds behind these complete pairs. -/
structure Reached (pairs : List (Nat × Nat)) (p : Pairing) : Prop where
  ordinal : p.directOrdinal =
    if 0 < e.direct.ordinal then max (e.direct.ordinal - pairs.length) 0
    else if e.direct.ordinal = 0 then -1 else e.direct.ordinal
  direct : p.foundDirect = (e.fromOrdinal pairs).getLast?.map Prod.fst
  indirect : p.foundIndirect = pairs.getLast?.map Prod.snd
  directs : ∀ d, d ∈ members p.directsAccum ↔
    ∃ i, (d, i) ∈ e.fromOrdinal pairs ∧ e.isFlagged (d, i) = false
  indirects : ∀ i, i ∈ members p.indirectsAccum ↔
    ∃ d, (d, i) ∈ pairs ∧ e.isFlagged (d, i) = false
  directSize : p.directsAccum.length = e.session.loaded.objects.length
  indirectSize : p.indirectsAccum.length = e.session.loaded.objects.length

variable {e} {pairs pairs' : List (Nat × Nat)} {p : Pairing} {pair : Nat × Nat}

theorem fromOrdinal_concat (pairs : List (Nat × Nat)) (pair : Nat × Nat) :
    e.fromOrdinal (pairs ++ [pair]) = e.fromOrdinal pairs ++
      if e.direct.ordinal ≤ pairs.length + 1 then [pair] else [] := by
  have same : e.direct.ordinal.toNat - 1 ≤ pairs.length ↔
      e.direct.ordinal ≤ pairs.length + 1 := by omega
  rw [fromOrdinal, drop_concat, ← fromOrdinal, if_congr same rfl rfl]

theorem Clear.left (clear : e.Clear (pairs ++ pairs')) : e.Clear pairs where
  indirect unique := (clear.indirect unique).left
  direct unique := by
    have constant := clear.direct unique
    rw [fromOrdinal, List.drop_append] at constant
    exact constant.left

theorem Reached.withErr (reached : e.Reached pairs p) (err : ParserErrorInfo) :
    e.Reached pairs { p with err := err } :=
  ⟨reached.ordinal, reached.direct, reached.indirect, reached.directs, reached.indirects,
    reached.directSize, reached.indirectSize⟩

/-! ## One pair -/

/-- The ordinal behind one more complete pair. -/
def countDown (p : Pairing) : Int :=
  if 0 < p.directOrdinal then p.directOrdinal - 1 else p.directOrdinal

theorem Reached.countDown_nonpos (reached : e.Reached pairs p) :
    countDown p ≤ 0 ↔ e.direct.ordinal ≤ pairs.length + 1 := by
  rw [countDown, reached.ordinal]
  split_ifs <;> omega

theorem getLast?_map_any {α β : Type*} [DecidableEq β] (f : α → β) (l : List α) (b : β) :
    ((l.getLast?.map f).any (· ≠ b)) = false ↔ ∀ y, l.getLast? = some y → f y = b := by
  cases l.getLast? with
  | none => simp
  | some y => simp

/-- The test for another indirect object. -/
theorem Reached.indirect_test (reached : e.Reached pairs p) (clear : e.Clear pairs)
    (i l : Nat) :
    ¬ (e.slots.indirectUnique = true ∧ p.foundIndirect.any (· ≠ l) = true) ↔
      (e.indirectUnique → Constant Prod.snd (pairs ++ [(i, l)])) := by
  rw [not_and, Bool.not_eq_true, reached.indirect, getLast?_map_any]
  exact forall_congr' fun unique => (constant_concat (clear.indirect unique) (i, l)).symm

/-- The test for another direct object. -/
theorem Reached.direct_test (reached : e.Reached pairs p) (clear : e.Clear pairs) (i l : Nat) :
    ¬ (countDown p ≤ 0 ∧ e.slots.directUnique = true ∧ p.foundDirect.any (· ≠ i) = true) ↔
      (e.directUnique → Constant Prod.fst (e.fromOrdinal (pairs ++ [(i, l)]))) := by
  rw [reached.countDown_nonpos, fromOrdinal_concat]
  by_cases counted : e.direct.ordinal ≤ pairs.length + 1
  · rw [and_iff_right counted, if_pos counted, not_and, Bool.not_eq_true, reached.direct,
      getLast?_map_any]
    exact forall_congr' fun unique => (constant_concat (clear.direct unique) (i, l)).symm
  · rw [if_neg counted, List.append_nil]
    exact iff_of_true (fun both => counted both.1) clear.direct

theorem mem_members_set {bits : ObjBitset} {i j : Nat} (inside : i < bits.length) :
    j ∈ members (bits.set i true) ↔ j ∈ members bits ∨ j = i := by
  constructor
  · exact mem_members_accept
  · rw [mem_members, mem_members, List.getElem?_set]
    rintro (mem | rfl)
    · split_ifs
      · rfl
      · exact mem
    · rw [if_pos rfl, if_pos inside]

/-- A complete pair that competes with none is accepted. -/
theorem Reached.accept (reached : e.Reached pairs p) (err : ParserErrorInfo) {i l : Nat}
    (inside : i < e.session.loaded.objects.length)
    (inside' : l < e.session.loaded.objects.length) :
    e.Reached (pairs ++ [(i, l)])
      (({ p with err := err, directOrdinal := countDown p } : Pairing).accept i l
        (e.isFlagged (i, l))) := by
  have counts := reached.countDown_nonpos
  constructor
  · rw [Pairing.accept, List.length_append, List.length_singleton]
    change countDown p = _
    rw [countDown, reached.ordinal]
    split_ifs <;> omega
  · rw [fromOrdinal_concat, Pairing.accept]
    by_cases counted : countDown p ≤ 0
    · rw [if_pos (counts.mp counted), List.getLast?_concat]
      exact if_pos counted
    · rw [if_neg fun le => counted (counts.mpr le), List.append_nil, ← reached.direct]
      exact if_neg counted
  · rw [List.getLast?_concat]
    rfl
  · intro d
    rw [fromOrdinal_concat, Pairing.accept]
    dsimp only
    by_cases counted : countDown p ≤ 0 ∧ e.isFlagged (i, l) = false
    · rw [if_pos ⟨by rw [counted.2]; rfl, counted.1⟩, if_pos (counts.mp counted.1),
        mem_members_set (by rw [reached.directSize]; exact inside), reached.directs]
      constructor
      · rintro (⟨l', mem, plain⟩ | rfl)
        · exact ⟨l', List.mem_append_left _ mem, plain⟩
        · exact ⟨l, List.mem_append_right _ List.mem_cons_self, counted.2⟩
      · rintro ⟨l', mem, plain⟩
        rcases List.mem_append.mp mem with left | right
        · exact .inl ⟨l', left, plain⟩
        · exact .inr (Prod.mk.inj (List.mem_singleton.mp right)).1
    · rw [if_neg fun both => counted ⟨both.2, (Bool.not_eq_true' _).mp both.1⟩, reached.directs]
      refine exists_congr fun l' => ?_
      rw [List.mem_append, or_and_right]
      refine (or_iff_left ?_).symm
      rintro ⟨mem, plain⟩
      by_cases late : e.direct.ordinal ≤ pairs.length + 1
      · rw [if_pos late, List.mem_singleton] at mem
        rw [mem] at plain
        exact counted ⟨counts.mpr late, plain⟩
      · rw [if_neg late] at mem
        exact List.not_mem_nil mem
  · intro l'
    rw [Pairing.accept]
    dsimp only
    by_cases plain : e.isFlagged (i, l) = false
    · have size : l < p.indirectsAccum.length := by
        rw [reached.indirectSize]
        exact inside'
      rw [if_pos (by rw [plain]; rfl), mem_members_set size, reached.indirects]
      constructor
      · rintro (⟨d, mem, plain⟩ | rfl)
        · exact ⟨d, List.mem_append_left _ mem, plain⟩
        · exact ⟨i, List.mem_append_right _ List.mem_cons_self, plain⟩
      · rintro ⟨d, mem, plain⟩
        rcases List.mem_append.mp mem with left | right
        · exact .inl ⟨d, left, plain⟩
        · exact .inr (Prod.mk.inj (List.mem_singleton.mp right)).2
    · rw [if_neg fun said => plain ((Bool.not_eq_true' _).mp said), reached.indirects]
      refine exists_congr fun d => ?_
      rw [List.mem_append, or_and_right]
      refine (or_iff_left ?_).symm
      rintro ⟨mem, plain'⟩
      rw [List.mem_singleton.mp mem] at plain'
      exact plain plain'
  · rw [Pairing.accept, ← reached.directSize]
    dsimp only
    split_ifs
    · exact List.length_set
    · rfl
  · rw [Pairing.accept, ← reached.indirectSize]
    dsimp only
    split_ifs
    · exact List.length_set
    · rfl

/-! ## The probes of a pair -/

/-- A session in which the relational probes ask what they ask in the first one. -/
structure Relating (e : TwoObjects a) (session : SentenceSession) : Prop where
  objects : session.loaded.objects = e.session.loaded.objects
  first : ∀ k, (session.slot k).first = (e.session.slot k).first
  last : ∀ k, (session.slot k).last = (e.session.slot k).last
  token : ∀ k, (session.slot k).token = (e.session.slot k).token

variable {session : SentenceSession} {s : MatchState} {i l : Nat}

theorem Relating.answer (relating : e.Relating session) (direct : session.directObject = some i)
    (indirect : session.indirectObject = some l) (directFirst : Bool) :
    a.answer session (if directFirst then 4 else 5) (if directFirst then i else l) =
      e.relation (if directFirst then 4 else 5) (i, l) := by
  have alike {which : Nat} (relation : which ≠ 2) : a.Alike which
      { e.session with directObject := some i, indirectObject := some l } session :=
    ⟨relating.objects, relating.first, relating.last, fun _ => ⟨direct, indirect⟩,
      fun two => absurd two relation⟩
  cases directFirst with
  | true => exact (alike (by decide)).answer (by decide) i
  | false => exact (alike (by decide)).answer (by decide) l

theorem checkOneRelation_spec (session : SentenceSession) (relating : e.Relating session)
    (errorless : s.numErrors = 0)
    (direct : session.directObject = some i) (indirect : session.indirectObject = some l)
    (live : (a.live e.session.loaded.objects i).isSome)
    (live' : (a.live e.session.loaded.objects l).isSome) (errinfo : ParserErrorInfo) :
    ∃ (error : Bool) (errinfo' left : ParserErrorInfo),
      a.checkOneRelation session s e.indirectUnique errinfo =
        (⟨e.isComplete (i, l), error⟩, errinfo', session.withError left) ∧
      (e.isComplete (i, l) = true → error = e.isFlagged (i, l)) ∧
      (errinfo' = .none ↔ errinfo = .none ∧ e.isCached (i, l) = false) ∧
      (e.isCached (i, l) = false → (left = .none ↔ e.isComplete (i, l) = true)) := by
  have alive (directFirst : Bool) :
      (a.live session.loaded.objects (if directFirst then i else l)).isSome := by
    rw [relating.objects]
    cases directFirst with
    | true => exact live
    | false => exact live'
  have noResult (directFirst : Bool) : (if directFirst then 4 else 5) ≠ 3 := by
    cases directFirst <;> decide
  have probe (directFirst : Bool) :=
    parallelCheckFunctions_eq (noResult directFirst) errorless (alive directFirst) e.handler
  obtain ⟨e₁, first, silent⟩ := probe e.indirectUnique
  obtain ⟨e₂, second, silent'⟩ := probe !e.indirectUnique
  rw [relating.answer direct indirect, ← firstAnswer] at first silent
  rw [relating.answer direct indirect] at second silent'
  have flip {β : Type} (x y : β) :
      (if (!e.indirectUnique) = true then x else y) = if e.indirectUnique = true then y else x := by
    cases e.indirectUnique <;> rfl
  rw [flip, flip, ← secondAnswer] at second
  rw [flip, ← secondAnswer] at silent'
  rw [isCached, isFlagged, isComplete, Answer.any_warns, Answer.any_warns]
  unfold checkOneRelation
  rw [direct, indirect]
  dsimp only [Option.getD_some]
  rw [first]
  cases accepted : (e.firstAnswer (i, l)).any Answer.accepts with
  | false =>
      have refused : e₁ ≠ .none := fun none => by
        rw [Answer.any_accepts_of_grants (silent.mp none)] at accepted
        cases accepted
      have ungranted : (e.firstAnswer (i, l)).any Answer.grants = false := by
        rw [← Bool.not_eq_true, ← silent]
        exact refused
      exact ⟨true, errinfo, e₁, rfl, nofun, by simp [ungranted],
        fun _ => iff_of_false refused nofun⟩
  | true =>
      dsimp only
      by_cases none : e₁ = .none
      · rw [silent.mp none, none, cacheLastParallelError_of_none rfl]
        dsimp only
        rw [parallelCheckFunctions_withError, second]
        cases accepted' : (e.secondAnswer (i, l)).any Answer.accepts with
        | false =>
            have refused : e₂ ≠ .none := fun none => by
              rw [Answer.any_accepts_of_grants (silent'.mp none)] at accepted'
              cases accepted'
            exact ⟨true, errinfo, e₂, rfl, nofun, by simp, fun _ => iff_of_false refused nofun⟩
        | true =>
            dsimp only
            rw [if_pos rfl]
            by_cases none' : e₂ = .none
            · rw [silent'.mp none', none', cacheLastParallelError_of_none rfl]
              exact ⟨false, errinfo, .none, rfl, fun _ => rfl, by simp, by simp⟩
            · have warned : (e.secondAnswer (i, l)).any Answer.grants = false := by
                rw [← Bool.not_eq_true, ← silent']
                exact none'
              have said : ¬ (session.withError e₂).parallelError = .none := none'
              rw [warned, cacheLastParallelError_of_ne said]
              dsimp only
              rw [if_neg said]
              exact ⟨true, e₂, .none, rfl, fun _ => rfl, by simp [none'], by simp⟩
      · have warned : (e.firstAnswer (i, l)).any Answer.grants = false := by
          rw [← Bool.not_eq_true, ← silent]
          exact none
        have said : ¬ (session.withError e₁).parallelError = .none := none
        rw [warned, cacheLastParallelError_of_ne said]
        dsimp only
        rw [if_neg said, parallelCheckFunctions_withError, parallelCheckFunctions_withError,
          second]
        cases (e.secondAnswer (i, l)).any Answer.accepts with
        | false => exact ⟨true, e₁, e₂, rfl, nofun, by simp [none], by simp⟩
        | true =>
            dsimp only
            rw [if_neg said, if_neg said]
            exact ⟨false, e₁, e₂, rfl, fun _ => rfl, by simp [none], by simp⟩

/-! ## A row -/

theorem Relating.of_same (relating : e.Relating session) {session' : SentenceSession}
    (shared : session'.shared = session.shared) (loaded : session'.loaded = session.loaded) :
    e.Relating session' where
  objects := by rw [loaded, relating.objects]
  first k := by rw [slot_of_shared shared, relating.first]
  last k := by rw [slot_of_shared shared, relating.last]
  token k := by rw [slot_of_shared shared, relating.token]

/-- A scan that comes through these pairs changes no match. -/
structure Passes (e : TwoObjects a) (pairs : List (Nat × Nat)) (q : Pairing)
    (session session' : SentenceSession) : Prop where
  reached : e.Reached pairs q
  clear : e.Clear pairs
  shared : session'.shared = session.shared
  loaded : session'.loaded = session.loaded

/-- What is left of the errors of the pairs that were asked. -/
structure Leaves (e : TwoObjects a) (asked : List (Nat × Nat)) (err err' : ParserErrorInfo)
    (session session' : SentenceSession) : Prop where
  cached : err' = .none ↔ err = .none ∧ ∀ pair ∈ asked, e.isCached pair = false
  last : ∀ pair, asked.getLast? = some pair → e.isCached pair = false →
    (session'.parallelError = .none ↔ e.isComplete pair = true)
  empty : asked = [] → session'.parallelError = session.parallelError

theorem Leaves.refl (err : ParserErrorInfo) {session session' : SentenceSession}
    (same : session'.parallelError = session.parallelError) :
    e.Leaves [] err err session session' :=
  ⟨by simp, nofun, fun _ => same⟩

theorem Leaves.trans {asked asked' : List (Nat × Nat)} {err err₁ err₂ : ParserErrorInfo}
    {session session₁ session₂ : SentenceSession} (first : e.Leaves asked err err₁ session session₁)
    (second : e.Leaves asked' err₁ err₂ session₁ session₂) :
    e.Leaves (asked ++ asked') err err₂ session session₂ where
  cached := by rw [second.cached, first.cached, List.forall_mem_append, and_assoc]
  last pair final plain := by
    by_cases none : asked' = []
    · rw [none, List.append_nil] at final
      rw [second.empty none]
      exact first.last pair final plain
    · rw [List.getLast?_append_of_ne_nil _ none] at final
      exact second.last pair final plain
  empty none := by
    obtain ⟨none, none'⟩ := List.append_eq_nil_iff.mp none
    rw [second.empty none', first.empty none]

theorem Leaves.cons {session₁ session₂ : SentenceSession} {asked : List (Nat × Nat)}
    {err err₁ err₂ : ParserErrorInfo}
    (cached : err₁ = .none ↔ err = .none ∧ e.isCached pair = false)
    (last : e.isCached pair = false →
      (session₁.parallelError = .none ↔ e.isComplete pair = true))
    (leaves : e.Leaves asked err₁ err₂ session₁ session₂) :
    e.Leaves (pair :: asked) err err₂ session session₂ := by
  have one : e.Leaves [pair] err err₁ session session₁ := by
    refine ⟨by rw [cached, List.forall_mem_singleton], fun pair' final plain => ?_, nofun⟩
    obtain rfl : pair = pair' := Option.some.inj final
    exact last plain
  exact one.trans leaves

theorem inside_of_live {objects : List ObjectId} (live : (a.live objects i).isSome) :
    i < objects.length := by
  obtain ⟨ob, found⟩ := Option.isSome_iff_exists.mp live
  exact (List.getElem?_eq_some_iff.mp (Option.filter_eq_some_iff.mp found).1).1

theorem pairLoop_spec (session : SentenceSession) (errorless : s.numErrors = 0)
    {numbers : List Nat}
    (live : (a.live e.session.loaded.objects i).isSome)
    (lives : ∀ l ∈ numbers, (a.live e.session.loaded.objects l).isSome)
    (relating : e.Relating session) (direct : session.directObject = some i)
    (reached : e.Reached pairs p) (clear : e.Clear pairs) :
    (∃ q session', a.pairLoop e.slots i numbers p session s = (some q, session', s) ∧
        e.Passes (pairs ++ e.row numbers i) q session session' ∧
        e.Leaves (numbers.map (Prod.mk i)) p.err q.err session session') ∨
      (∃ session' s', a.pairLoop e.slots i numbers p session s = (none, session', s') ∧
        s'.numErrors ≠ 0 ∧ ¬ e.Clear (pairs ++ e.row numbers i)) := by
  have oneMore : s.numErrors + 1 ≠ 0 := by omega
  induction numbers generalizing pairs p session with
  | nil =>
      rw [row, List.map_nil, List.filter_nil, List.append_nil]
      exact .inl ⟨p, session, rfl, ⟨reached, clear, rfl, rfl⟩, .refl p.err rfl⟩
  | cons l numbers ih =>
      have live' := lives l List.mem_cons_self
      have others : ∀ l' ∈ numbers, (a.live e.session.loaded.objects l').isSome :=
        fun l' mem => lives l' (List.mem_cons_of_mem l mem)
      obtain ⟨error, err, left, checked, flagged, cached, silent⟩ := checkOneRelation_spec
        (e := e) { session with indirectObject := some l }
        (relating.of_same rfl rfl) errorless direct rfl live live' p.err
      change a.checkOneRelation _ s e.slots.indirectUnique p.err = _ at checked
      rw [row, List.map_cons, List.filter_cons, pairLoop]
      dsimp only
      rw [checked]
      cases complete : e.isComplete (i, l) with
      | false =>
          rw [complete] at silent
          rw [if_neg Bool.false_ne_true]
          rcases ih (p := { p with err := err })
            (({ session with indirectObject := some l } : SentenceSession).withError left) others
            (relating.of_same rfl rfl) direct (reached.withErr err) clear with
            ⟨q, session', run, passes, leaves⟩ | ⟨session', s', run, errors, unclear⟩
          · exact .inl ⟨q, session', run,
              ⟨passes.reached, passes.clear, passes.shared, passes.loaded⟩,
              leaves.cons cached fun plain => by rw [complete]; exact silent plain⟩
          · exact .inr ⟨session', s', run, errors, unclear⟩
      | true =>
          rw [complete] at silent
          rw [if_pos rfl, List.append_cons]
          dsimp only
          by_cases test : e.slots.indirectUnique = true ∧ p.foundIndirect.any (· ≠ l) = true
          · rw [if_pos test]
            refine .inr ⟨_, _, rfl, oneMore, fun clear' => ?_⟩
            exact (reached.indirect_test clear i l).mpr clear'.left.indirect test
          · rw [if_neg test, show (if 0 < p.directOrdinal then p.directOrdinal - 1
              else p.directOrdinal) = countDown p from rfl]
            by_cases test' : countDown p ≤ 0 ∧ e.slots.directUnique = true ∧
                p.foundDirect.any (· ≠ i) = true
            · rw [if_pos test']
              refine .inr ⟨_, _, rfl, oneMore, fun clear' => ?_⟩
              exact (reached.direct_test clear i l).mpr clear'.left.direct test'
            · rw [if_neg test', flagged complete]
              have clear' : e.Clear (pairs ++ [(i, l)]) :=
                ⟨(reached.indirect_test clear i l).mp test,
                  (reached.direct_test clear i l).mp test'⟩
              rcases ih
                (({ session with indirectObject := some l } : SentenceSession).withError left)
                others (relating.of_same rfl rfl) direct
                (reached.accept err (inside_of_live live) (inside_of_live live')) clear' with
                ⟨q, session', run, passes, leaves⟩ | ⟨session', s', run, errors, unclear⟩
              · exact .inl ⟨q, session', run,
                  ⟨passes.reached, passes.clear, passes.shared, passes.loaded⟩,
                  leaves.cons cached fun plain => by rw [complete]; exact silent plain⟩
              · exact .inr ⟨session', s', run, errors, unclear⟩

/-! ## All rows -/

/-- The complete pairs of these objects, in the order in which they are asked. -/
def hits (e : TwoObjects a) (indirects directs : List Nat) : List (Nat × Nat) :=
  directs.flatMap (e.row indirects)

/-- The outer loop ends behind a row. -/
def Finished (e : TwoObjects a) (p : Pairing) : Prop :=
  p.foundDirect ≠ some 0 ∧
    (p.directOrdinal = 0 ∨ e.directUnique = true ∧ e.direct.token.choose = true)

instance (p : Pairing) : Decidable (e.Finished p) :=
  inferInstanceAs (Decidable (_ ∧ _))

variable {indirects directs : List Nat}

theorem pairsLoop_cons (errorless : s.numErrors = 0)
    (live : (a.live e.session.loaded.objects i).isSome)
    (lives : ∀ l ∈ indirects, (a.live e.session.loaded.objects l).isSome)
    (relating : e.Relating session) (reached : e.Reached pairs p) (clear : e.Clear pairs) :
    (∃ q session', (∀ directs, a.pairsLoop e.slots indirects (i :: directs) p session s =
          if e.Finished q then (some q, session', s)
          else a.pairsLoop e.slots indirects directs q session' s) ∧
        e.Passes (pairs ++ e.row indirects i) q session session' ∧
        e.Leaves (indirects.map (Prod.mk i)) p.err q.err session session') ∨
      (∃ session' s', (∀ directs, a.pairsLoop e.slots indirects (i :: directs) p session s =
          (none, session', s')) ∧
        s'.numErrors ≠ 0 ∧ ¬ e.Clear (pairs ++ e.row indirects i)) := by
  rcases pairLoop_spec { session with directObject := some i } errorless live lives
    (relating.of_same rfl rfl) rfl reached clear with
    ⟨q, session', run, passes, leaves⟩ | ⟨session', s', run, errors, unclear⟩
  · have relating' := relating.of_same passes.shared passes.loaded
    refine .inl ⟨q, session', fun directs => ?_,
      ⟨passes.reached, passes.clear, passes.shared, passes.loaded⟩,
      ⟨leaves.cached, leaves.last, leaves.empty⟩⟩
    rw [pairsLoop]
    dsimp only
    rw [run]
    dsimp only
    rw [relating'.token]
    rfl
  · refine .inr ⟨session', s', fun directs => ?_, errors, unclear⟩
    rw [pairsLoop]
    dsimp only
    rw [run]

theorem hits_cons (indirects : List Nat) (i : Nat) (directs : List Nat) :
    e.hits indirects (i :: directs) = e.row indirects i ++ e.hits indirects directs :=
  List.flatMap_cons

/-- Rows behind which the loop does not end. -/
theorem pairsLoop_rows (directs : List Nat) (errorless : s.numErrors = 0)
    (live : ∀ d ∈ directs, (a.live e.session.loaded.objects d).isSome)
    (lives : ∀ l ∈ indirects, (a.live e.session.loaded.objects l).isSome)
    (relating : e.Relating session) (reached : e.Reached pairs p) (clear : e.Clear pairs)
    (goesOn : ∀ d ∈ directs, ∀ pairs' q, pairs <+: pairs' →
      pairs' <+: pairs ++ e.hits indirects directs → e.Clear pairs' → e.Reached pairs' q →
        ¬ e.Finished q) :
    (∃ q session', (∀ rest, a.pairsLoop e.slots indirects (directs ++ rest) p session s =
          a.pairsLoop e.slots indirects rest q session' s) ∧
        e.Passes (pairs ++ e.hits indirects directs) q session session' ∧
        e.Leaves (directs ×ˢ indirects) p.err q.err session session') ∨
      (∃ session' s', (∀ rest, a.pairsLoop e.slots indirects (directs ++ rest) p session s =
          (none, session', s')) ∧
        s'.numErrors ≠ 0 ∧ ¬ e.Clear (pairs ++ e.hits indirects directs)) := by
  induction directs generalizing pairs p session with
  | nil =>
      refine .inl ⟨p, session, fun _ => rfl, ⟨?_, ?_, rfl, rfl⟩, .refl p.err rfl⟩
      · rwa [hits, List.flatMap_nil, List.append_nil]
      · rwa [hits, List.flatMap_nil, List.append_nil]
  | cons d directs ih =>
      rw [hits_cons, ← List.append_assoc] at goesOn ⊢
      rcases pairsLoop_cons errorless (live d List.mem_cons_self) lives relating reached clear with
        ⟨q, session', run, passes, leaves⟩ | ⟨session', s', run, errors, unclear⟩
      · have going : ¬ e.Finished q :=
          goesOn d List.mem_cons_self _ q (List.prefix_append _ _) (List.prefix_append _ _)
            passes.clear passes.reached
        rcases ih (fun d' mem => live d' (List.mem_cons_of_mem d mem))
          (relating.of_same passes.shared passes.loaded) passes.reached passes.clear
          (fun d' mem pairs' q' begins => goesOn d' (List.mem_cons_of_mem d mem) pairs' q'
            ((List.prefix_append _ _).trans begins)) with
          ⟨q', session'', run', passes', leaves'⟩ | ⟨session'', s', run', errors, unclear⟩
        · refine .inl ⟨q', session'', fun rest => ?_,
            ⟨passes'.reached, passes'.clear, passes'.shared.trans passes.shared,
              passes'.loaded.trans passes.loaded⟩, leaves.trans leaves'⟩
          rw [List.cons_append, run, if_neg going, run']
        · refine .inr ⟨session'', s', fun rest => ?_, errors, unclear⟩
          rw [List.cons_append, run, if_neg going, run']
      · exact .inr ⟨session', s', fun rest => run _, errors, fun clear => unclear clear.left⟩

theorem hits_append (indirects before after : List Nat) :
    e.hits indirects (before ++ after) = e.hits indirects before ++ e.hits indirects after :=
  List.flatMap_append

theorem hits_concat (indirects before : List Nat) (r : Nat) :
    e.hits indirects (before ++ [r]) = e.hits indirects before ++ e.row indirects r := by
  have none : e.hits indirects [] = [] := List.flatMap_nil
  rw [hits_append, hits_cons, none, List.append_nil]

theorem product_concat (indirects before : List Nat) (r : Nat) :
    (before ++ [r]) ×ˢ indirects = before ×ˢ indirects ++ indirects.map (Prod.mk r) := by
  change (before ++ [r]).flatMap _ = before.flatMap _ ++ _
  rw [List.flatMap_append, List.flatMap_singleton]

theorem mem_row {indirects : List Nat} {r : Nat} :
    pair ∈ e.row indirects r ↔ pair.1 = r ∧ pair.2 ∈ indirects ∧ e.isComplete pair = true := by
  obtain ⟨d, i⟩ := pair
  rw [row, List.mem_filter, List.mem_map, ← and_assoc]
  refine and_congr_left fun _ => ?_
  constructor
  · rintro ⟨l, mem, same⟩
    obtain ⟨rfl, rfl⟩ := Prod.mk.inj same
    exact ⟨rfl, mem⟩
  · rintro ⟨rfl, mem⟩
    exact ⟨i, mem, rfl⟩

theorem mem_hits : pair ∈ e.hits indirects directs ↔
    pair.1 ∈ directs ∧ pair.2 ∈ indirects ∧ e.isComplete pair = true := by
  rw [hits, List.mem_flatMap]
  constructor
  · rintro ⟨r, mem, here⟩
    obtain ⟨rfl, rest⟩ := mem_row.mp here
    exact ⟨mem, rest⟩
  · rintro ⟨mem, rest⟩
    exact ⟨pair.1, mem, mem_row.mpr ⟨rfl, rest⟩⟩

theorem fromOrdinal_append (pairs pairs' : List (Nat × Nat)) :
    e.fromOrdinal (pairs ++ pairs') = e.fromOrdinal pairs ++
      pairs'.drop (e.direct.ordinal.toNat - 1 - pairs.length) := by
  rw [fromOrdinal, List.drop_append, ← fromOrdinal]

/-- Behind a pair that is counted all are. -/
theorem fromOrdinal_append_of_counted (counted : e.fromOrdinal pairs ≠ [])
    (pairs' : List (Nat × Nat)) :
    e.fromOrdinal (pairs ++ pairs') = e.fromOrdinal pairs ++ pairs' := by
  have short : e.direct.ordinal.toNat - 1 - pairs.length = 0 := by
    by_contra long
    exact counted (List.drop_eq_nil_of_le (by omega))
  rw [fromOrdinal_append, short, List.drop_zero]

/-- The object 0 looks to the loop like none at all. -/
theorem Reached.zero_of_going (reached : e.Reached pairs p)
    (ends : p.directOrdinal = 0 ∨ e.directUnique = true ∧ e.direct.token.choose = true)
    (going : ¬ e.Finished p) : ∃ l, (0, l) ∈ e.fromOrdinal pairs := by
  have zero : p.foundDirect = some 0 := by
    by_contra other
    exact going ⟨other, ends⟩
  rw [reached.direct, Option.map_eq_some_iff] at zero
  obtain ⟨⟨d, l⟩, final, rfl⟩ := zero
  exact ⟨l, List.mem_of_getLast? final⟩

theorem Reached.going_of_zero {pairs' : List (Nat × Nat)} (reached : e.Reached pairs' p)
    (clear : e.Clear pairs') (unique : e.directUnique = true) (begins : pairs <+: pairs')
    (zero : (0, l) ∈ e.fromOrdinal pairs) : ¬ e.Finished p := by
  obtain ⟨rest, rfl⟩ := begins
  have counted := List.ne_nil_of_mem zero
  rw [Finished, reached.direct]
  intro finished
  apply finished.1
  have whole := fromOrdinal_append_of_counted counted rest
  have constant := clear.direct unique
  rw [whole] at constant ⊢
  obtain ⟨pair, final⟩ : ∃ pair, (e.fromOrdinal pairs ++ rest).getLast? = some pair :=
    ⟨_, List.getLast?_eq_some_getLast (List.append_ne_nil_of_left_ne_nil counted rest)⟩
  rw [final, Option.map_some,
    constant pair (List.mem_of_getLast? final) (0, l) (List.mem_append_left rest zero)]

/-- The scan ends behind the row `r`, unless its object is 0. -/
theorem pairsLoop_stops {before after : List Nat} {r : Nat} (errorless : s.numErrors = 0)
    (sorted : (before ++ r :: after).Pairwise (· < ·))
    (live : ∀ d ∈ before ++ r :: after, (a.live e.session.loaded.objects d).isSome)
    (lives : ∀ l ∈ indirects, (a.live e.session.loaded.objects l).isSome)
    (relating : e.Relating session) (start : e.Reached [] p) (unique : e.directUnique = true)
    (uncounted : e.fromOrdinal (e.hits indirects before) = [])
    (goesOn : ∀ d ∈ before, ∀ pairs' q, pairs' <+: e.hits indirects before → e.Clear pairs' →
      e.Reached pairs' q → ¬ e.Finished q)
    (ends : ∀ q, e.Reached (e.hits indirects (before ++ [r])) q →
      q.directOrdinal = 0 ∨ e.directUnique = true ∧ e.direct.token.choose = true) :
    (∃ q session', a.pairsLoop e.slots indirects (before ++ r :: after) p session s =
          (some q, session', s) ∧
        e.Passes (e.hits indirects (before ++ [r])) q session session' ∧
        (r = 0 → e.fromOrdinal (e.hits indirects (before ++ [r])) ≠ [] →
          e.hits indirects after = []) ∧
        (e.fromOrdinal (e.hits indirects (before ++ [r])) = [] →
          e.Leaves ((before ++ [r]) ×ˢ indirects) p.err q.err session session')) ∨
      (∃ session' s', a.pairsLoop e.slots indirects (before ++ r :: after) p session s =
          (none, session', s') ∧ s'.numErrors ≠ 0 ∧
        ¬ (e.Clear (e.hits indirects (before ++ [r])) ∧
          (r = 0 → e.fromOrdinal (e.hits indirects (before ++ [r])) ≠ [] →
            e.hits indirects after = []))) := by
  have empty : e.Clear [] := ⟨fun _ _ mem => absurd mem List.not_mem_nil,
    fun _ _ mem => absurd (List.mem_of_mem_drop mem) List.not_mem_nil⟩
  have inRow {pair : Nat × Nat}
      (counted : pair ∈ e.fromOrdinal (e.hits indirects (before ++ [r]))) : pair.1 = r := by
    rw [hits_concat, fromOrdinal_append, uncounted, List.nil_append] at counted
    exact (mem_row.mp (List.mem_of_mem_drop counted)).1
  have behind : ∀ d ∈ after, r < d := by
    have tail := (List.pairwise_append.mp sorted).2.1
    exact fun d mem => List.rel_of_pairwise_cons tail mem
  rcases pairsLoop_rows before errorless (fun d mem => live d (List.mem_append_left _ mem)) lives
    relating start empty (fun d mem pairs' q _ => goesOn d mem pairs' q) with
    ⟨q₁, session₁, run₁, passes₁, leaves₁⟩ | ⟨session', s', run, errors, unclear⟩
  · rw [List.nil_append] at passes₁
    have relating₁ := relating.of_same passes₁.shared passes₁.loaded
    rcases pairsLoop_cons errorless (live r (List.mem_append_right _ List.mem_cons_self)) lives
      relating₁ passes₁.reached passes₁.clear with
      ⟨q₂, session₂, run₂, passes₂, leaves₂⟩ | ⟨session', s', run₂, errors, unclear⟩
    · rw [← hits_concat] at passes₂
      have passed : e.Passes (e.hits indirects (before ++ [r])) q₂ session session₂ :=
        ⟨passes₂.reached, passes₂.clear, passes₂.shared.trans passes₁.shared,
          passes₂.loaded.trans passes₁.loaded⟩
      by_cases finished : e.Finished q₂
      · refine .inl ⟨q₂, session₂, by rw [run₁, run₂, if_pos finished], passed, ?_, fun _ => ?_⟩
        · intro zero counted
          obtain ⟨pair, mem⟩ := List.exists_mem_of_ne_nil _ counted
          obtain ⟨d, l⟩ := pair
          obtain rfl : d = 0 := (inRow mem).trans zero
          exact absurd finished (passes₂.reached.going_of_zero passes₂.clear unique
            (List.prefix_refl _) mem)
        · rw [product_concat]
          exact leaves₁.trans leaves₂
      · obtain ⟨l, zero⟩ := passes₂.reached.zero_of_going (ends q₂ passes₂.reached) finished
        have counted := List.ne_nil_of_mem zero
        have isZero : r = 0 := (inRow zero).symm
        have relating₂ := relating.of_same passed.shared passed.loaded
        rcases pairsLoop_rows after errorless
          (fun d mem => live d (List.mem_append_right _ (List.mem_cons_of_mem r mem))) lives
          relating₂ passes₂.reached passes₂.clear
          (fun d mem pairs' q begins _ clear reached =>
            reached.going_of_zero clear unique begins zero) with
          ⟨q₃, session₃, run₃, passes₃, -⟩ | ⟨session', s', run₃, errors, unclear⟩
        · have none : e.hits indirects after = [] := by
            by_contra some
            obtain ⟨pair, mem⟩ := List.exists_mem_of_ne_nil _ some
            have constant := passes₃.clear.direct unique
            rw [fromOrdinal_append_of_counted counted] at constant
            have same := constant pair (List.mem_append_right _ mem) (0, l)
              (List.mem_append_left _ zero)
            have later := behind pair.1 (mem_hits.mp mem).1
            omega
          rw [none, List.append_nil] at passes₃
          refine .inl ⟨q₃, session₃, ?_, ⟨passes₃.reached, passes₃.clear,
            passes₃.shared.trans passed.shared, passes₃.loaded.trans passed.loaded⟩,
            fun _ _ => none, fun uncounted => absurd uncounted counted⟩
          have whole := run₃ []
          rw [List.append_nil] at whole
          rw [run₁, run₂, if_neg finished, whole]
          rfl
        · refine .inr ⟨session', s', ?_, errors, fun both => ?_⟩
          · have whole := run₃ []
            rw [List.append_nil] at whole
            rw [run₁, run₂, if_neg finished, whole]
          · rw [both.2 isZero counted, List.append_nil] at unclear
            exact unclear both.1
    · refine .inr ⟨session', s', by rw [run₁, run₂], errors, fun both => ?_⟩
      rw [← hits_concat] at unclear
      exact unclear both.1
  · refine .inr ⟨session', s', run _, errors, fun both => ?_⟩
    have clear := both.1
    rw [hits_concat] at clear
    exact unclear clear.left

/-! ## The whole scan -/

variable (e)

/-- The indirect objects of the pairs: an ordinal leaves one. -/
def targets : List Nat :=
  if e.indirect.ordinal = 0 then e.indirects
  else if 0 < e.indirect.ordinal then (e.indirects[e.indirect.ordinal.toNat - 1]?).toList
  else []

/-- All complete pairs. -/
def complete : List (Nat × Nat) :=
  e.hits e.targets e.directs

/-- Any direct object will do. -/
def Chooses : Prop :=
  e.directUnique = true ∧ e.direct.token.choose = true

instance : Decidable e.Chooses :=
  inferInstanceAs (Decidable (_ ∧ _))

/-- The direct object whose row is the last one: the first of all, or that of the pair to which
the ordinal counts. -/
def last : Option Nat :=
  if e.Chooses then e.directs.head?
  else if 0 < e.direct.ordinal then
    (e.complete[e.direct.ordinal.toNat - 1]?).map Prod.fst
  else none

/-- The complete pairs up to the last row. -/
def tried : List (Nat × Nat) :=
  e.complete.filter fun pair => e.last.all (pair.1 ≤ ·)

/-- The direct objects that are tried as long as no pair is counted. -/
def rows : List Nat :=
  if e.Chooses then e.directs.take 1 else e.directs

/-- The scan does not end behind the object 0, and finds nothing then. -/
def Alone : Prop :=
  e.last = some 0 → e.fromOrdinal e.tried ≠ [] → e.tried = e.complete

variable {e}

theorem sorted_members (bits : ObjBitset) : (members bits).Pairwise (· < ·) :=
  List.pairwise_lt_range.filter _

theorem sorted_directs : e.directs.Pairwise (· < ·) :=
  (sorted_members _).filter _

theorem live_directs : ∀ d ∈ e.directs, (a.live e.session.loaded.objects d).isSome :=
  fun d mem => e.directMatch.live d (List.mem_filter.mp mem).1

theorem targets_subset : ∀ i ∈ e.targets, i ∈ e.indirects := by
  intro i mem
  rw [targets] at mem
  split_ifs at mem
  · exact mem
  · exact List.mem_of_getElem? (Option.mem_toList.mp mem)
  · exact absurd mem List.not_mem_nil

theorem live_targets : ∀ i ∈ e.targets, (a.live e.session.loaded.objects i).isSome :=
  fun i mem => e.indirectMatch.live i (List.mem_filter.mp (targets_subset i mem)).1

theorem unique_of_ordinal (ordinal : 0 < e.direct.ordinal) : e.directUnique = true := by
  rw [directUnique, Bool.not_eq_true', ← Bool.not_eq_true]
  intro plural
  have zero := e.directMatch.plain plural
  change e.direct.ordinal = 0 at zero
  omega

/-- The rows up to the last one, and those behind it. -/
structure Split (e : TwoObjects a) (before : List Nat) (r : Nat) (after : List Nat) : Prop where
  directs : e.directs = before ++ r :: after
  last : e.last = some r

namespace Split

variable {before after : List Nat} {r : Nat}

theorem complete_eq (split : e.Split before r after) :
    e.complete = e.hits e.targets (before ++ [r]) ++ e.hits e.targets after := by
  rw [complete, split.directs, ← hits_append, List.append_assoc]
  rfl

theorem before_lt (split : e.Split before r after) : ∀ d ∈ before, d < r := by
  have sorted : e.directs.Pairwise (· < ·) := sorted_directs
  rw [split.directs] at sorted
  exact fun d mem => (List.pairwise_append.mp sorted).2.2 d mem r List.mem_cons_self

theorem lt_after (split : e.Split before r after) : ∀ d ∈ after, r < d := by
  have sorted : e.directs.Pairwise (· < ·) := sorted_directs
  rw [split.directs] at sorted
  exact fun d mem => List.rel_of_pairwise_cons (List.pairwise_append.mp sorted).2.1 mem

theorem tried_eq (split : e.Split before r after) :
    e.tried = e.hits e.targets (before ++ [r]) := by
  rw [tried, split.last, split.complete_eq, List.filter_append, List.filter_eq_self.mpr,
    List.filter_eq_nil_iff.mpr, List.append_nil]
  · intro pair mem
    have later := split.lt_after pair.1 (mem_hits.mp mem).1
    rw [Option.all_some, decide_eq_true_iff]
    omega
  · intro pair mem
    rw [Option.all_some, decide_eq_true_iff]
    rcases List.mem_append.mp (mem_hits.mp mem).1 with earlier | here
    · exact (split.before_lt pair.1 earlier).le
    · exact (List.mem_singleton.mp here).le

theorem alone_iff (split : e.Split before r after) :
    e.Alone ↔ (r = 0 → e.fromOrdinal (e.hits e.targets (before ++ [r])) ≠ [] →
      e.hits e.targets after = []) := by
  rw [Alone, split.last, split.tried_eq, split.complete_eq, Option.some_inj,
    List.self_eq_append_right]

end Split

/-- The scan comes through, or it ends with an error. -/
def Ends (e : TwoObjects a) (p : Pairing) (session : SentenceSession) (s : MatchState) : Prop :=
  (∃ q session', a.pairsLoop e.slots e.targets e.directs p session s = (some q, session', s) ∧
      e.Passes e.tried q session session' ∧ e.Alone ∧
      (e.fromOrdinal e.tried = [] →
        e.Leaves (e.rows ×ˢ e.targets) p.err q.err session session')) ∨
    (∃ session' s', a.pairsLoop e.slots e.targets e.directs p session s = (none, session', s') ∧
      s'.numErrors ≠ 0 ∧ ¬ (e.Clear e.tried ∧ e.Alone))

theorem ends_of_split {before after : List Nat} {r : Nat} (split : e.Split before r after)
    (errorless : s.numErrors = 0) (relating : e.Relating session) (start : e.Reached [] p)
    (unique : e.directUnique = true)
    (uncounted : e.fromOrdinal (e.hits e.targets before) = [])
    (goesOn : ∀ d ∈ before, ∀ pairs' q, pairs' <+: e.hits e.targets before → e.Clear pairs' →
      e.Reached pairs' q → ¬ e.Finished q)
    (ends : ∀ q, e.Reached e.tried q → q.directOrdinal = 0 ∨ e.Chooses)
    (rows : e.fromOrdinal e.tried = [] → e.rows = before ++ [r]) : e.Ends p session s := by
  have sorted : e.directs.Pairwise (· < ·) := sorted_directs
  have live : ∀ d ∈ e.directs, (a.live e.session.loaded.objects d).isSome := live_directs
  rw [Ends, split.alone_iff, split.tried_eq, split.directs]
  rw [split.tried_eq] at ends rows
  rw [split.directs] at sorted live
  rcases pairsLoop_stops errorless sorted live live_targets relating start unique uncounted goesOn
    ends with ⟨q, session', run, passes, alone, leaves⟩ | stopped
  · exact .inl ⟨q, session', run, passes, alone,
      fun none => by rw [rows none]; exact leaves none⟩
  · exact .inr stopped

theorem scan_ends (errorless : s.numErrors = 0) (relating : e.Relating session)
    (start : e.Reached [] p) : e.Ends p session s := by
  by_cases chooses : e.Chooses
  · have lastEq : e.last = e.directs.head? := if_pos chooses
    have rowsEq : e.rows = e.directs.take 1 := if_pos chooses
    cases listed : e.directs with
    | nil =>
        have none : e.complete = [] := by
          rw [complete, listed]
          rfl
        have tried_ : e.tried = [] := by
          rw [tried, none]
          rfl
        rw [Ends, tried_, listed, rowsEq, listed]
        refine .inl ⟨p, session, rfl, ⟨start, ?_, rfl, rfl⟩, ?_, fun _ => .refl p.err rfl⟩
        · exact ⟨fun _ _ mem => absurd mem List.not_mem_nil,
            fun _ _ mem => absurd (List.mem_of_mem_drop mem) List.not_mem_nil⟩
        · intro _ _
          rw [tried_, none]
    | cons r after =>
        rw [listed] at lastEq rowsEq
        have split : e.Split [] r after := ⟨listed, lastEq⟩
        exact ends_of_split split errorless relating start chooses.1 List.drop_nil
          (fun _ mem => absurd mem List.not_mem_nil) (fun _ _ => .inr chooses) fun _ => rowsEq
  · have rowsEq : e.rows = e.directs := if_neg chooses
    by_cases reached : 0 < e.direct.ordinal ∧
        (e.complete[e.direct.ordinal.toNat - 1]?).isSome
    · obtain ⟨positive, some_⟩ := reached
      obtain ⟨⟨r, l⟩, found⟩ := Option.isSome_iff_exists.mp some_
      have lastEq : e.last = some r := by
        rw [last, if_neg chooses, if_pos positive, found]
        rfl
      obtain ⟨before, after, listed⟩ :=
        List.append_of_mem (mem_hits.mp (List.mem_of_getElem? found)).1
      have split : e.Split before r after := ⟨listed, lastEq⟩
      have short : (e.hits e.targets before).length ≤ e.direct.ordinal.toNat - 1 := by
        by_contra long
        rw [split.complete_eq, hits_concat, List.append_assoc,
          List.getElem?_append_left (by omega)] at found
        exact (split.before_lt r (mem_hits.mp (List.mem_of_getElem? found)).1).false
      have whole : e.direct.ordinal.toNat ≤ e.tried.length := by
        rw [split.tried_eq]
        by_contra short
        rw [split.complete_eq, List.getElem?_append_right (by omega)] at found
        exact (split.lt_after r (mem_hits.mp (List.mem_of_getElem? found)).1).false
      refine ends_of_split split errorless relating start (unique_of_ordinal positive)
        (List.drop_eq_nil_of_le short) ?_ ?_ ?_
      · intro _ _ pairs' q begins _ reached finished
        have bound := begins.length_le
        rcases finished.2 with zero | chosen
        · rw [reached.ordinal, if_pos positive] at zero
          omega
        · exact chooses chosen
      · intro q reached
        refine .inl ?_
        rw [reached.ordinal, if_pos positive]
        omega
      · intro none
        have short := List.drop_eq_nil_iff.mp none
        omega
    · have lastEq : e.last = none := by
        rw [last, if_neg chooses]
        by_cases positive : 0 < e.direct.ordinal
        · rw [if_pos positive, Option.not_isSome_iff_eq_none.mp fun some_ =>
            reached ⟨positive, some_⟩]
          rfl
        · exact if_neg positive
      have triedEq : e.tried = e.complete := by
        rw [tried, lastEq]
        exact List.filter_eq_self.mpr fun _ _ => rfl
      have alone : e.Alone := fun _ _ => triedEq
      have empty : e.Clear [] := ⟨fun _ _ mem => absurd mem List.not_mem_nil,
        fun _ _ mem => absurd (List.mem_of_mem_drop mem) List.not_mem_nil⟩
      have goesOn : ∀ d ∈ e.directs, ∀ pairs' q, [] <+: pairs' → pairs' <+: [] ++ e.complete →
          e.Clear pairs' → e.Reached pairs' q → ¬ e.Finished q := by
        intro _ _ pairs' q _ part _ held finished
        have bound := part.length_le
        rw [List.nil_append] at bound
        rcases finished.2 with zero | chosen
        · rw [held.ordinal] at zero
          by_cases positive : 0 < e.direct.ordinal
          · have long : e.complete.length ≤ e.direct.ordinal.toNat - 1 := by
              by_contra inside
              exact reached ⟨positive, by
                rw [List.getElem?_eq_getElem (by omega)]
                rfl⟩
            rw [if_pos positive] at zero
            omega
          · rw [if_neg positive] at zero
            split_ifs at zero
            contradiction
        · exact chooses chosen
      rcases pairsLoop_rows e.directs errorless live_directs live_targets relating start empty
        goesOn with
        ⟨q, session', run, passes, leaves⟩ | ⟨session', s', run, errors, unclear⟩
      · rw [Ends, triedEq, rowsEq]
        have whole := run []
        rw [List.append_nil] at whole
        exact .inl ⟨q, session', whole, passes, alone, fun _ => leaves⟩
      · rw [Ends, triedEq]
        have whole := run []
        rw [List.append_nil] at whole
        exact .inr ⟨session', s', whole, errors, fun both => unclear both.1⟩

end TwoObjects

end Kjdmud.Efun.ParserPackage
