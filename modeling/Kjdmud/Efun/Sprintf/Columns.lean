import Kjdmud.Efun.Explode
import Kjdmud.Efun.Sprintf.Readings
import Kjdmud.Efun.Sprintf.Wrapping

/-!
# The columns of a format

The main scan lays out a column where the pre-scan has counted one at most.  So it lays out one
column at most unless the two read the format differently: `+` and a blank are modifiers for the
main scan only, and behind an `@` it takes any character for a conversion.
-/

namespace Kjdmud.Efun.Sprintf

open Kjdmud.Vm (Data Value World)

/-! ## Readings of a format -/

/-- The directives that the main scan reads, with a 1 for each `*`. -/
inductive Reads : Str → List Directive → Prop
  | nil : Reads [] []
  | text {c : UInt8} {s : Str} {ds : List Directive} (plain : c ≠ 37) (behind : Reads s ds) :
      Reads (c :: s) ds
  | percent {s : Str} {ds : List Directive} (behind : Reads s ds) : Reads (37 :: 37 :: s) ds
  | directive {s rest : Str} {d : Directive} {ds : List Directive} (nonempty : s ≠ [])
      (single : s.head? ≠ some 37) (reads : readDirective anyInt s () = .ok (d, rest, ()))
      (behind : Reads rest ds) : Reads (37 :: s) (d :: ds)

/-- The conversions that `renderSpec` knows. -/
def isConversion (spec : UInt8) : Bool :=
  [115, 100, 105, 111, 120, 88, 99, 79, 102].contains spec

/-- Some argument satisfies a directive. -/
structure Serviceable (d : Directive) : Prop where
  array : d.arrayMode = true → d.colMode = false ∧ d.spec ≠ 35
  known : d.arrayMode = false → isConversion d.spec = true
  wide : d.arrayMode = false → d.isColumn = true → 0 < d.fieldWidth.getD 0

/-- The pre-scan sees enough: a format that is read and can be served has one column at most, or
the pre-scan counts two at least. -/
def Sighted (fmt : Str) : Prop :=
  ∀ ds, Reads fmt ds → (∀ d ∈ ds, Serviceable d) →
    ds.countP Directive.isColumn ≤ 1 ∨ ∃ n, 2 ≤ n ∧ Loosely fmt n

section Directives

variable {w : World} {count : Nat} {d d' : Directive} {v : Value} {rest : Str} {chunk : Chunk}

theorem Alike.isColumn (alike : Alike d d') : d'.isColumn = d.isColumn := by
  rw [Directive.isColumn, Directive.isColumn, alike.colMode, alike.spec]

theorem Alike.serviceable (alike : Alike d d') (serviceable : Serviceable d) :
    Serviceable d' where
  array array := by
    rw [alike.colMode, alike.spec]
    exact serviceable.array (alike.arrayMode ▸ array)
  known plain := by
    rw [alike.spec]
    exact serviceable.known (alike.arrayMode ▸ plain)
  wide plain column := by
    apply alike.wide
    exact serviceable.wide (alike.arrayMode ▸ plain) (alike.isColumn ▸ column)

/-- A text comes from one of the conversions. -/
theorem isConversion_of_renderSpec {piece : Str} (renders : renderSpec w d v = some (.ok piece)) :
    isConversion d.spec = true := by
  by_contra unknown
  have other : ∀ spec, isConversion spec = true → d.spec ≠ spec := by
    intro spec known same
    rw [same] at unknown
    exact unknown known
  rw [renderSpec, if_neg (other 115 rfl), if_neg (not_or.mpr ⟨other 100 rfl, other 105 rfl⟩),
    if_neg (not_or.mpr ⟨other 111 rfl, not_or.mpr ⟨other 120 rfl, other 88 rfl⟩⟩),
    if_neg (other 99 rfl), if_neg (other 79 rfl), if_neg (other 102 rfl)] at renders
  cases renders

/-- A directive that was laid out is serviceable, and is a column where the chunk is one. -/
theorem layOut_ok (lays : layOut w count d v rest = some (.ok chunk)) :
    Serviceable d ∧ chunk.isColumn = d.isColumn ∧ (d.isColumn = true → count ≤ 1) := by
  unfold layOut at lays
  split at lays
  · cases lays
  · next compatible =>
      split at lays
      · next array =>
          have plain : d.colMode = false ∧ d.spec ≠ 35 := by
            constructor
            · by_contra column
              exact compatible ⟨array, .inl (Bool.eq_true_of_not_eq_false column)⟩
            · exact fun hash => compatible ⟨array, .inr hash⟩
          have noColumn : d.isColumn = false := by
            rw [Directive.isColumn, plain.1]
            rfl
          split at lays
          · obtain ⟨result, renders, same⟩ := Option.map_eq_some_iff.mp lays
            cases result with
            | error message => cases same
            | ok text =>
                cases same
                refine ⟨⟨fun _ => plain, ?_, ?_⟩, noColumn.symm, ?_⟩
                · exact fun single => by rw [array] at single; cases single
                · exact fun single => by rw [array] at single; cases single
                · exact fun column => by rw [noColumn] at column; cases column
          · cases lays
      · next single =>
          split at lays
          · cases lays
          · cases lays
          · next piece renders =>
              have known := isConversion_of_renderSpec renders
              split at lays
              · next column =>
                  split at lays
                  · cases lays
                  · next few =>
                      split at lays
                      · next wide =>
                          obtain ⟨lines, _, same⟩ := Option.map_eq_some_iff.mp lays
                          cases same
                          refine ⟨⟨fun array => absurd array single, fun _ => known,
                            fun _ _ => wide⟩, column.symm, fun _ => Nat.not_lt.mp few⟩
                      · cases lays
              · next plain =>
                  cases lays
                  refine ⟨⟨fun array => absurd array single, fun _ => known,
                    fun _ column => absurd column plain⟩, ?_, fun column => absurd column plain⟩
                  exact (Bool.eq_false_of_not_eq_true plain).symm

/-- The argument that a directive is served with. -/
def servedWith (d : Directive) : Value :=
  if d.arrayMode then ⟨.array (some 0), false, false⟩
  else if d.spec = 115 then Value.string []
  else if d.spec = 102 then Value.double (Double.zero false)
  else Value.int 0

/-- The values that a directive may show of an argument. -/
def shownOf (w : World) (v : Value) : List Value :=
  match v.data with
  | .array ref => v :: arrayItems w ref
  | _ => [v]

theorem mem_shownOf (w : World) (v : Value) : v ∈ shownOf w v := by
  unfold shownOf
  split
  · exact List.mem_cons_self
  · exact List.mem_singleton.mpr rfl

theorem wrapWidth_pos (d : Directive) {fieldWidth : Int32} (wide : 0 < fieldWidth) :
    0 < (wrapWidth d fieldWidth).toInt.toNat := by
  have positive : 0 < wrapWidth d fieldWidth := by
    unfold wrapWidth
    cases d.precision with
    | none => exact wide
    | some precision =>
        dsimp only
        generalize (if precision < fieldWidth then precision else fieldWidth) = width
        split
        · exact wide
        · next positive => exact Int32.not_le.mp positive
  have toInt := Int32.lt_iff_toInt_lt.mp positive
  rw [Int32.toInt_zero] at toInt
  omega

/-- A column has its lines. -/
theorem exists_columnLines (d : Directive) {fieldWidth : Int32} (wide : 0 < fieldWidth)
    (piece rest : Str) : ∃ lines, columnLines d fieldWidth piece rest = some lines := by
  obtain ⟨segs, wraps, _⟩ := wrapForColumn_right piece (wrapWidth_pos d wide) (Nat.le_refl _)
  rw [columnLines, wraps]
  exact ⟨_, rfl⟩

theorem debugText_zero (w : World) : debugText w (Value.int 0) = some (.ok (str "0")) := by
  rw [debugText, stackBound, Walk.write]
  rfl

theorem renderSpec_served (serviceable : Serviceable d) (single : d.arrayMode = false) :
    ∃ piece, renderSpec w d (servedWith d) = some (.ok piece) := by
  have known := List.contains_iff_mem.mp (serviceable.known single)
  have plain : ¬ d.arrayMode = true := by
    rw [single]
    exact Bool.false_ne_true
  have zero : sprintfNumericArg (Value.int 0) = some 0 := rfl
  rw [servedWith, if_neg plain, renderSpec]
  simp only [List.mem_cons, List.not_mem_nil, or_false] at known
  rcases known with spec | spec | spec | spec | spec | spec | spec | spec | spec
  · exact ⟨[], by rw [if_pos spec, if_pos spec]; rfl⟩
  all_goals simp [spec, zero, debugText_zero, Value.double]

theorem exists_layOut (empty : w.array 0 = []) (serviceable : Serviceable d) (few : count ≤ 1)
    (rest : Str) : ∃ chunk, layOut w count d (servedWith d) rest = some (.ok chunk) := by
  cases array : d.arrayMode with
  | true =>
      have plain := serviceable.array array
      have compatible : ¬ (d.arrayMode = true ∧ (d.colMode = true ∨ d.spec = 35)) := by
        rintro ⟨-, column | hash⟩
        · rw [plain.1] at column
          cases column
        · exact plain.2 hash
      rw [layOut, if_neg compatible, if_pos array, servedWith, if_pos array]
      refine ⟨.text [], ?_⟩
      change (renderItems w d (w.array 0)).map _ = _
      rw [empty]
      rfl
  | false =>
      have single : ¬ d.arrayMode = true := by
        rw [array]
        exact Bool.false_ne_true
      obtain ⟨piece, renders⟩ := renderSpec_served serviceable array (w := w)
      rw [layOut, if_neg (fun both => single both.1), if_neg single, renders]
      dsimp only
      by_cases column : d.isColumn = true
      · have wide := serviceable.wide array column
        obtain ⟨lines, gives⟩ := exists_columnLines d wide piece rest
        rw [if_pos column, if_neg (Nat.not_lt.mpr few), if_pos wide, gives]
        exact ⟨_, rfl⟩
      · rw [if_neg column]
        exact ⟨_, rfl⟩

/-! ## Where the stack does not suffice -/

theorem debugText_of_renderSpec (stuck : renderSpec w d v = none) : debugText w v = none := by
  unfold renderSpec at stuck
  repeat' split at stuck
  all_goals first | cases stuck | exact stuck

theorem debugText_of_renderItems {vs : List Value} (stuck : renderItems w d vs = none) :
    ∃ v ∈ vs, debugText w v = none := by
  induction vs with
  | nil => cases stuck
  | cons v vs ih =>
      rw [renderItems] at stuck
      cases renders : renderSpec w d v with
      | none => exact ⟨v, List.mem_cons_self, debugText_of_renderSpec renders⟩
      | some result =>
          rw [renders] at stuck
          cases result with
          | error message => cases stuck
          | ok piece =>
              obtain ⟨u, member, loops⟩ := ih (Option.map_eq_none_iff.mp stuck)
              exact ⟨u, List.mem_cons_of_mem v member, loops⟩

theorem debugText_of_layOut (stuck : layOut w count d v rest = none) :
    ∃ u ∈ shownOf w v, debugText w u = none := by
  unfold layOut at stuck
  split at stuck
  · cases stuck
  split at stuck
  · split at stuck
    · next ref data =>
        obtain ⟨u, member, loops⟩ := debugText_of_renderItems (Option.map_eq_none_iff.mp stuck)
        refine ⟨u, ?_, loops⟩
        rw [shownOf, data]
        exact List.mem_cons_of_mem v member
    · cases stuck
  split at stuck
  · next renders => exact ⟨v, mem_shownOf w v, debugText_of_renderSpec renders⟩
  · cases stuck
  split at stuck
  · split at stuck
    · cases stuck
    split at stuck
    · next piece _ _ _ wide =>
        obtain ⟨lines, gives⟩ := exists_columnLines d wide piece rest
        rw [gives] at stuck
        cases stuck
    · cases stuck
  · cases stuck

end Directives

/-! ## The loop -/

/-- The values that a format may show of its arguments. -/
def shown (w : World) (args : List Value) : List Value :=
  args.flatMap (shownOf w)

section Loop

variable {w : World} {count fuel : Nat} {s : Str} {args : List Value} {laid : List Chunk}
  {ds : List Directive} {chunk : Chunk} {result : Option (Except Str (List Chunk))}

/-- What the loop comes to: an error, chunks, or a value for which the stack does not suffice. -/
def Ends (w : World) (args : List Value) (result : Option (Except Str (List Chunk))) : Prop :=
  (∃ message, result = some (.error message)) ∨ (∃ laid, result = some (.ok laid)) ∨
    (result = none ∧ ∃ v ∈ shown w args, debugText w v = none)

theorem Ends.before (ends : Ends w args result) (chunk : Chunk) :
    Ends w args (before chunk result) := by
  rcases ends with ⟨message, rfl⟩ | ⟨laid, rfl⟩ | ⟨rfl, stuck⟩
  · exact .inl ⟨message, rfl⟩
  · exact .inr (.inl ⟨chunk :: laid, rfl⟩)
  · exact .inr (.inr ⟨rfl, stuck⟩)

theorem Ends.mono {args' : List Value} (ends : Ends w args' result)
    (fewer : ∀ v ∈ args', v ∈ args) : Ends w args result := by
  rcases ends with failed | done | ⟨none_, v, member, loops⟩
  · exact .inl failed
  · exact .inr (.inl done)
  · obtain ⟨u, found, shows⟩ := List.mem_flatMap.mp member
    exact .inr (.inr ⟨none_, v, List.mem_flatMap.mpr ⟨u, fewer u found, shows⟩, loops⟩)

theorem before_eq_ok (lays : before chunk result = some (.ok laid)) :
    ∃ behind, result = some (.ok behind) ∧ laid = chunk :: behind := by
  obtain ⟨inner, rfl, same⟩ := Option.map_eq_some_iff.mp lays
  cases inner with
  | error message => cases same
  | ok behind =>
      cases same
      exact ⟨behind, rfl, rfl⟩

/-- The loop comes to an end within a round for each byte. -/
theorem formatLoop_ends (w : World) (count fuel : Nat) (s : Str) (args : List Value)
    (enough : s.length < fuel) : Ends w args (formatLoop w count fuel s args) := by
  induction fuel generalizing s args with
  | zero => cases enough
  | succ fuel ih =>
      cases s with
      | nil => exact .inr (.inl ⟨[], rfl⟩)
      | cons c s =>
          have shorter : s.length < fuel := Nat.lt_of_succ_lt_succ enough
          rw [formatLoop]
          by_cases plain : c ≠ 37
          · rw [if_pos plain]
            exact (ih s args shorter).before (.text [c])
          rw [if_neg plain]
          by_cases empty : s = []
          · rw [if_pos empty]
            exact .inl ⟨_, rfl⟩
          rw [if_neg empty]
          by_cases percent : s.head? = some 37
          · rw [if_pos percent]
            have shorter' : s.tail.length < fuel := by
              rw [List.length_tail]
              omega
            exact (ih s.tail args shorter').before (.text [37])
          rw [if_neg percent]
          cases reads : readDirective takeInt s args with
          | error message => exact .inl ⟨message, rfl⟩
          | ok read =>
              obtain ⟨d, rest, args'⟩ := read
              obtain ⟨suffix, fewer, _⟩ := readDirective_agrees reads
              cases args' with
              | nil => exact .inl ⟨_, rfl⟩
              | cons v behind =>
                  have member : v ∈ args := fewer.subset List.mem_cons_self
                  dsimp only
                  cases lays : layOut w count d v rest with
                  | none =>
                      obtain ⟨u, shows, loops⟩ := debugText_of_layOut lays
                      refine .inr (.inr ⟨rfl, u, ?_, loops⟩)
                      exact List.mem_flatMap.mpr ⟨v, member, shows⟩
                  | some result =>
                      cases result with
                      | error message => exact .inl ⟨message, rfl⟩
                      | ok chunk =>
                          have ends := ih rest behind (suffix.length_le.trans_lt shorter)
                          apply (ends.before chunk).mono
                          exact fun u found => fewer.subset (List.mem_cons_of_mem v found)

/-- A format that was laid out is one that is read and served, with its columns; there are none
where the pre-scan has counted two. -/
theorem formatLoop_ok (lays : formatLoop w count fuel s args = some (.ok laid)) :
    ∃ ds, Reads s ds ∧ (∀ d ∈ ds, Serviceable d) ∧
      laid.countP Chunk.isColumn = ds.countP Directive.isColumn ∧
        (1 < count → laid.countP Chunk.isColumn = 0) := by
  induction fuel generalizing s args laid with
  | zero => cases lays
  | succ fuel ih =>
      cases s with
      | nil =>
          cases lays
          exact ⟨[], .nil, fun d member => absurd member List.not_mem_nil, rfl, fun _ => rfl⟩
      | cons c s =>
          rw [formatLoop] at lays
          by_cases plain : c ≠ 37
          · rw [if_pos plain] at lays
            obtain ⟨behind, goes, rfl⟩ := before_eq_ok lays
            obtain ⟨ds, reads, serviceable, columns, none_⟩ := ih goes
            exact ⟨ds, .text plain reads, serviceable, columns, none_⟩
          rw [if_neg plain] at lays
          rw [not_not.mp plain]
          by_cases empty : s = []
          · rw [if_pos empty] at lays
            cases lays
          rw [if_neg empty] at lays
          by_cases percent : s.head? = some 37
          · rw [if_pos percent] at lays
            obtain ⟨s, rfl⟩ := List.head?_eq_some_iff.mp percent
            obtain ⟨behind, goes, rfl⟩ := before_eq_ok lays
            obtain ⟨ds, reads, serviceable, columns, none_⟩ := ih goes
            exact ⟨ds, .percent reads, serviceable, columns, none_⟩
          rw [if_neg percent] at lays
          cases reads : readDirective takeInt s args with
          | error message =>
              rw [reads] at lays
              cases lays
          | ok read =>
              obtain ⟨d, rest, args'⟩ := read
              obtain ⟨_, _, d', any, alike⟩ := readDirective_agrees reads
              rw [reads] at lays
              cases args' with
              | nil => cases lays
              | cons v args' =>
                  dsimp only at lays
                  cases result : layOut w count d v rest with
                  | none =>
                      rw [result] at lays
                      cases lays
                  | some result' =>
                      rw [result] at lays
                      cases result' with
                      | error message => cases lays
                      | ok chunk =>
                          obtain ⟨behind, goes, rfl⟩ := before_eq_ok lays
                          obtain ⟨ds, reads, serviceable, columns, none_⟩ := ih goes
                          obtain ⟨serves, same, few⟩ := layOut_ok result
                          refine ⟨d' :: ds, .directive empty percent any reads, ?_, ?_, ?_⟩
                          · intro other member
                            rcases List.mem_cons.mp member with rfl | member
                            · exact alike.serviceable serves
                            · exact serviceable other member
                          · rw [List.countP_cons, List.countP_cons, columns, same,
                              alike.isColumn]
                          · intro many
                            have noColumn : chunk.isColumn = false := by
                              rw [same]
                              by_contra column
                              have := few (Bool.eq_true_of_not_eq_false column)
                              omega
                            rw [List.countP_cons, none_ many, noColumn]
                            rfl

/-- A format that can be served is laid out with some arguments. -/
theorem exists_formatLoop (few : count ≤ 1) (empty : w.array 0 = []) (reads : Reads s ds)
    (serviceable : ∀ d ∈ ds, Serviceable d) :
    ∃ args, ∀ fuel, s.length < fuel → ∃ laid,
      formatLoop w count fuel s args = some (.ok laid) ∧
        laid.countP Chunk.isColumn = ds.countP Directive.isColumn := by
  induction reads with
  | nil =>
      refine ⟨[], fun fuel enough => ⟨[], ?_, rfl⟩⟩
      obtain ⟨fuel, rfl⟩ := Nat.exists_eq_succ_of_ne_zero (Nat.ne_zero_of_lt enough)
      rfl
  | @text c s ds plain behind ih =>
      obtain ⟨args, lays⟩ := ih serviceable
      refine ⟨args, fun fuel enough => ?_⟩
      obtain ⟨fuel, rfl⟩ := Nat.exists_eq_succ_of_ne_zero (Nat.ne_zero_of_lt enough)
      obtain ⟨laid, lays, columns⟩ := lays fuel (Nat.lt_of_succ_lt_succ enough)
      refine ⟨.text [c] :: laid, ?_, columns⟩
      rw [formatLoop, if_pos plain, lays]
      rfl
  | @percent s ds behind ih =>
      obtain ⟨args, lays⟩ := ih serviceable
      refine ⟨args, fun fuel enough => ?_⟩
      obtain ⟨fuel, rfl⟩ := Nat.exists_eq_succ_of_ne_zero (Nat.ne_zero_of_lt enough)
      have shorter : s.length < fuel :=
        (Nat.lt_succ_self _).trans (Nat.lt_of_succ_lt_succ enough)
      obtain ⟨laid, lays, columns⟩ := lays fuel shorter
      refine ⟨.text [37] :: laid, ?_, columns⟩
      rw [formatLoop, if_neg (not_not.mpr rfl), if_neg (List.cons_ne_nil _ _),
        if_pos List.head?_cons, List.tail_cons, lays]
      rfl
  | @directive s rest d ds nonempty single reads behind ih =>
      obtain ⟨args, lays⟩ := ih fun d' member => serviceable d' (List.mem_cons_of_mem d member)
      obtain ⟨stars, gives⟩ := readDirective_stars reads
      obtain ⟨chunk, result⟩ := exists_layOut empty (serviceable d List.mem_cons_self) few rest
      refine ⟨stars ++ servedWith d :: args, fun fuel enough => ?_⟩
      obtain ⟨fuel, rfl⟩ := Nat.exists_eq_succ_of_ne_zero (Nat.ne_zero_of_lt enough)
      have suffix := (readDirective_agrees (gives [])).1
      have shorter : rest.length < fuel :=
        suffix.length_le.trans_lt (Nat.lt_of_succ_lt_succ enough)
      obtain ⟨laid, lays, columns⟩ := lays fuel shorter
      refine ⟨chunk :: laid, ?_, ?_⟩
      · rw [formatLoop, if_neg (not_not.mpr rfl), if_neg nonempty, if_neg single, gives]
        dsimp only
        rw [result]
        dsimp only
        rw [lays]
        rfl
      · rw [List.countP_cons, List.countP_cons, columns, (layOut_ok result).2.1]

end Loop

/-! ## The law -/

/-- What column mode promises: texts are wrapped without a loss, and a format that raises no error
has one column at most. -/
structure ColumnMode (fmt : Str) : Prop where
  wraps : ∀ (text : Str) (width fuel : Nat), 0 < width → text.length ≤ fuel →
    ∃ segs, wrapForColumn fuel text width = some segs ∧ WrapsRight text width segs
  single : ∀ (w : World) (args : List Value) (fuel : Nat), fmt.length < fuel →
    (∃ message, sprintf fuel w (Value.string fmt :: args) = some (.error message)) ∨
    (∃ laid, chunks fuel w fmt args = some (.ok laid) ∧
      sprintf fuel w (Value.string fmt :: args) = some (.ok (laid.foldl Chunk.append [])) ∧
        laid.countP Chunk.isColumn ≤ 1) ∨
    (sprintf fuel w (Value.string fmt :: args) = none ∧
      ∃ v ∈ shown w args, debugText w v = none)

theorem sprintf_string (fuel : Nat) (w : World) (fmt : Str) (args : List Value) :
    sprintf fuel w (Value.string fmt :: args) =
      (chunks fuel w fmt args).map (Except.map fun laid => laid.foldl Chunk.append []) :=
  rfl

/-- Column mode keeps its promises for a format exactly when the pre-scan sees enough of it. -/
theorem columnMode_iff (fmt : Str) : ColumnMode fmt ↔ Sighted fmt := by
  constructor
  · intro law ds reads serviceable
    by_contra blind
    have several := Nat.lt_of_not_le fun few => blind (.inl few)
    have few : countColStringSpecs fmt ≤ 1 := by
      by_contra many
      exact blind (.inr ⟨_, Nat.lt_of_not_le many, (loosely_iff fmt _).mpr rfl⟩)
    obtain ⟨args, lays⟩ := exists_formatLoop
      (w := { Explode.freshWorld with arrays := [[]] }) few rfl reads serviceable
    obtain ⟨laid, lays, columns⟩ := lays (fmt.length + 1) (Nat.lt_succ_self _)
    have gives : chunks (fmt.length + 1) { Explode.freshWorld with arrays := [[]] } fmt args =
        some (.ok laid) := lays
    rcases law.single { Explode.freshWorld with arrays := [[]] } args (fmt.length + 1)
      (Nat.lt_succ_self _) with ⟨message, fails⟩ | ⟨other, same, _, one⟩ | ⟨stuck, _⟩
    · rw [sprintf_string, gives] at fails
      cases fails
    · rw [gives] at same
      cases same
      omega
    · rw [sprintf_string, gives] at stuck
      cases stuck
  · intro sighted
    constructor
    · exact fun text width fuel wide enough => wrapForColumn_right text wide enough
    · intro w args fuel enough
      rw [sprintf_string]
      have ends : Ends w args (chunks fuel w fmt args) :=
        formatLoop_ends w _ fuel fmt args enough
      rcases ends with ⟨message, same⟩ | ⟨laid, same⟩ | ⟨same, stuck⟩
      · rw [same]
        exact .inl ⟨message, rfl⟩
      · refine .inr (.inl ⟨laid, same, by rw [same]; rfl, ?_⟩)
        obtain ⟨ds, reads, serviceable, columns, none_⟩ := formatLoop_ok same
        rcases sighted ds reads serviceable with few | ⟨n, many, loosely⟩
        · exact columns.trans_le few
        · rw [none_ ((loosely_iff fmt n).mp loosely ▸ many)]
          exact Nat.zero_le 1
      · rw [same]
        exact .inr (.inr ⟨rfl, stuck⟩)

/-- In `%=+10s%=+10s` the pre-scan sees no column. -/
theorem signed_columns : ¬ ∀ fmt, ColumnMode fmt := by
  intro every
  have lays : chunks 13 Explode.freshWorld (str "%=+10s%=+10s")
      [Value.string (str "a"), Value.string (str "b")] =
        some (.ok [.column [str "         a"], .column [str "         b"]]) := by
    decide +kernel
  rcases (every (str "%=+10s%=+10s")).single Explode.freshWorld
    [Value.string (str "a"), Value.string (str "b")] 13 (by decide) with
    ⟨message, fails⟩ | ⟨laid, same, _, one⟩ | ⟨stuck, _⟩
  · rw [sprintf_string, lays] at fails
    cases fails
  · rw [lays] at same
    cases same
    exact absurd one (by decide)
  · rw [sprintf_string, lays] at stuck
    cases stuck

end Kjdmud.Efun.Sprintf
