import Kjdmud.Efun.Sprintf
import Mathlib.Data.List.Induction
import Kjdmud.Lib.StateExcept
import Mathlib.Data.List.Infix

/-!
# How the pre-scan reads a format

The pre-scan has a grammar of its own: behind a `%` stand pads and certain characters in any
order, as many as there are, and one more character.  It counts the directives with a `=` whose
last character is `s` or `O`.
-/

namespace Kjdmud.Efun.Sprintf

variable {s body tail : Str} {c : UInt8} {eq : Bool} {modifiers : List Str} {n fuel : Nat}

/-! ## The grammar -/

/-- What stands between the quotes of a pad. -/
inductive PadBody : Str → Prop
  | nil : PadBody []
  | plain {c : UInt8} {s : Str} (quote : c ≠ 39) (backslash : c ≠ 92) (rest : PadBody s) :
      PadBody (c :: s)
  | escape {c : UInt8} {s : Str} (rest : PadBody s) : PadBody (92 :: c :: s)

/-- A modifier: a character, or a pad with its quotes. -/
inductive Modifier : Str → Prop
  | letter {c : UInt8} (known : isModifier c = true) : Modifier [c]
  | pad {body : Str} (pads : PadBody body) : Modifier (39 :: body ++ [39])

/-- A format that ends behind the modifiers, maybe inside a pad. -/
inductive Unfinished : Str → Prop
  | nil : Unfinished []
  | pad {body : Str} (pads : PadBody body) : Unfinished (39 :: body)
  | escape {body : Str} (pads : PadBody body) : Unfinished (39 :: body ++ [92])

/-- A format with so many columns for the pre-scan. -/
inductive Loosely : Str → Nat → Prop
  | nil : Loosely [] 0
  | last {c : UInt8} : Loosely [c] 0
  | text {c : UInt8} {s : Str} {n : Nat} (plain : c ≠ 37) (rest : Loosely s n) :
      Loosely (c :: s) n
  | percent {s : Str} {n : Nat} (rest : Loosely s n) : Loosely (37 :: 37 :: s) n
  | directive {modifiers : List Str} {spec : UInt8} {s : Str} {n : Nat}
      (known : ∀ m ∈ modifiers, Modifier m) (unknown : isModifier spec = false)
      (quote : spec ≠ 39) (percent : modifiers = [] → spec ≠ 37) (rest : Loosely s n) :
      Loosely (37 :: (modifiers.flatten ++ spec :: s))
        ((if modifiers.contains [61] && isText spec then 1 else 0) + n)
  | unfinished {modifiers : List Str} {tail : Str} (known : ∀ m ∈ modifiers, Modifier m)
      (ends : Unfinished tail) : Loosely (37 :: (modifiers.flatten ++ tail)) 0

/-! ## Every format is one of the grammar -/

theorem exists_padBody (s : Str) :
    (∃ body rest, PadBody body ∧ s = body ++ 39 :: rest) ∨ Unfinished (39 :: s) := by
  induction s using List.twoStepInduction with
  | nil => exact .inr (.pad .nil)
  | singleton c =>
      by_cases backslash : c = 92
      · rw [backslash]
        exact .inr (.escape .nil)
      · by_cases quote : c = 39
        · exact .inl ⟨[], [], .nil, by rw [quote]; rfl⟩
        · exact .inr (.pad (.plain quote backslash .nil))
  | cons_cons c e s ih ih' =>
      by_cases backslash : c = 92
      · rw [backslash]
        rcases ih with ⟨body, rest, pads, rfl⟩ | ends
        · exact .inl ⟨92 :: e :: body, rest, .escape pads, rfl⟩
        · cases ends with
          | pad pads => exact .inr (.pad (.escape pads))
          | escape pads => exact .inr (.escape (.escape pads))
      · by_cases quote : c = 39
        · exact .inl ⟨[], e :: s, .nil, by rw [quote]; rfl⟩
        · rcases ih' e with ⟨body, rest, pads, same⟩ | ends
          · exact .inl ⟨c :: body, rest, .plain quote backslash pads, by rw [same]; rfl⟩
          · generalize e :: s = s at ends
            cases ends with
            | pad pads => exact .inr (.pad (.plain quote backslash pads))
            | escape pads => exact .inr (.escape (.plain quote backslash pads))

/-- Modifiers at the front of a text, as many as there are. -/
def Headed (s : Str) : Prop :=
  ∃ (modifiers : List Str) (tail : Str), (∀ m ∈ modifiers, Modifier m) ∧
    s = modifiers.flatten ++ tail ∧
      (Unfinished tail ∨ ∃ spec rest, tail = spec :: rest ∧ isModifier spec = false ∧ spec ≠ 39)

theorem headed_unfinished (ends : Unfinished tail) : Headed tail :=
  ⟨[], tail, fun _ member => absurd member List.not_mem_nil, rfl, .inl ends⟩

theorem headed_spec (unknown : isModifier c = false) (quote : c ≠ 39) (s : Str) :
    Headed (c :: s) :=
  ⟨[], c :: s, fun _ member => absurd member List.not_mem_nil, rfl,
    .inr ⟨c, s, rfl, unknown, quote⟩⟩

theorem Headed.cons {m : Str} (modifier : Modifier m) (headed : Headed s) : Headed (m ++ s) := by
  obtain ⟨modifiers, tail, known, rfl, ends⟩ := headed
  refine ⟨m :: modifiers, tail, ?_, ?_, ends⟩
  · intro other member
    rcases List.mem_cons.mp member with rfl | member
    · exact modifier
    · exact known other member
  · rw [List.flatten_cons, List.append_assoc]

theorem headed (size : Nat) (s : Str) (bound : s.length ≤ size) : Headed s := by
  induction size generalizing s with
  | zero =>
      rw [List.length_eq_zero_iff.mp (Nat.le_zero.mp bound)]
      exact headed_unfinished .nil
  | succ size ih =>
      cases s with
      | nil => exact headed_unfinished .nil
      | cons c s =>
          have shorter := Nat.le_of_succ_le_succ bound
          by_cases quote : c = 39
          · rw [quote]
            rcases exists_padBody s with ⟨body, rest, pads, rfl⟩ | ends
            · have behind : rest.length ≤ size := by
                rw [List.length_append, List.length_cons] at shorter
                omega
              have headed := (ih rest behind).cons (.pad pads)
              rw [List.append_assoc] at headed
              exact headed
            · exact headed_unfinished ends
          · cases known : isModifier c with
            | true => exact (ih s shorter).cons (.letter known)
            | false => exact headed_spec known quote s

theorem exists_loosely (size : Nat) (s : Str) (bound : s.length ≤ size) : ∃ n, Loosely s n := by
  induction size generalizing s with
  | zero =>
      rw [List.length_eq_zero_iff.mp (Nat.le_zero.mp bound)]
      exact ⟨0, .nil⟩
  | succ size ih =>
      cases s with
      | nil => exact ⟨0, .nil⟩
      | cons c s =>
          have shorter := Nat.le_of_succ_le_succ bound
          by_cases plain : c = 37
          · rw [plain]
            obtain ⟨modifiers, tail, known, rfl, ends⟩ := headed _ s (Nat.le_refl _)
            rcases ends with ends | ⟨spec, rest, rfl, unknown, quote⟩
            · exact ⟨0, .unfinished known ends⟩
            · have bound' : rest.length ≤ size := by
                rw [List.length_append, List.length_cons] at shorter
                omega
              obtain ⟨n, loosely⟩ := ih rest bound'
              by_cases percent : modifiers = [] ∧ spec = 37
              · rw [percent.1, percent.2]
                exact ⟨n, .percent loosely⟩
              · exact ⟨_, .directive known unknown quote
                  (fun none_ same => percent ⟨none_, same⟩) loosely⟩
          · obtain ⟨n, loosely⟩ := ih s shorter
            exact ⟨n, .text plain loosely⟩

/-! ## The pre-scan counts the columns of the grammar -/

theorem scanModifiers_opens (eq : Bool) (s : Str) :
    scanModifiers false eq (39 :: s) = scanModifiers true eq s := by
  rw [scanModifiers.eq_def]
  rfl

theorem scanModifiers_closes (eq : Bool) (s : Str) :
    scanModifiers true eq (39 :: s) = scanModifiers false eq s := by
  rw [scanModifiers.eq_def]
  rfl

theorem scanModifiers_plain (quote : c ≠ 39) (backslash : c ≠ 92) (eq : Bool) (s : Str) :
    scanModifiers true eq (c :: s) = scanModifiers true eq s := by
  rw [scanModifiers.eq_def]
  dsimp only
  rw [if_pos rfl, if_neg backslash, decide_eq_true quote]

theorem scanModifiers_letter (quote : c ≠ 39) (known : isModifier c = true) (eq : Bool)
    (s : Str) : scanModifiers false eq (c :: s) = scanModifiers false (eq || c = 61) s := by
  rw [scanModifiers.eq_def]
  dsimp only
  rw [if_neg Bool.false_ne_true, if_neg quote, if_pos known]

theorem scanModifiers_spec (quote : c ≠ 39) (unknown : isModifier c = false) (eq : Bool)
    (s : Str) : scanModifiers false eq (c :: s) = (eq, c :: s) := by
  rw [scanModifiers.eq_def]
  dsimp only
  rw [if_neg Bool.false_ne_true, if_neg quote, unknown, if_neg Bool.false_ne_true]

theorem scanModifiers_padBody (pads : PadBody body) (eq : Bool) (s : Str) :
    scanModifiers true eq (body ++ s) = scanModifiers true eq s := by
  induction pads with
  | nil => rfl
  | plain quote backslash rest ih =>
      rw [List.cons_append, scanModifiers_plain quote backslash]
      exact ih
  | escape rest ih => exact ih

theorem not_isModifier_quote : isModifier 39 = false := by
  decide

theorem scanModifiers_modifier {m : Str} (modifier : Modifier m) (eq : Bool) (s : Str) :
    scanModifiers false eq (m ++ s) = scanModifiers false (eq || m == [61]) s := by
  cases modifier with
  | @letter c known =>
      have quote : c ≠ 39 := by
        intro same
        rw [same, not_isModifier_quote] at known
        cases known
      have same : decide (c = 61) = ([c] == [61]) := by
        by_cases column : c = 61
        · rw [column]
          rfl
        · rw [decide_eq_false column, beq_eq_false_iff_ne.mpr]
          exact fun same => column (List.cons.inj same).1
      rw [List.cons_append, scanModifiers_letter quote known, same]
      rfl
  | @pad body pads =>
      have other : (39 :: body ++ [39] == [61]) = false := by
        rw [beq_eq_false_iff_ne]
        intro same
        cases (List.cons.inj same).1
      rw [other, Bool.or_false, List.cons_append, List.cons_append, List.append_assoc,
        scanModifiers_opens, scanModifiers_padBody pads, List.singleton_append,
        scanModifiers_closes]

theorem scanModifiers_modifiers (known : ∀ m ∈ modifiers, Modifier m) (eq : Bool) (s : Str) :
    scanModifiers false eq (modifiers.flatten ++ s) =
      scanModifiers false (eq || modifiers.contains [61]) s := by
  induction modifiers generalizing eq with
  | nil =>
      rw [List.contains_nil, Bool.or_false]
      rfl
  | cons m modifiers ih =>
      rw [List.flatten_cons, List.append_assoc, scanModifiers_modifier (known m List.mem_cons_self),
        ih fun other member => known other (List.mem_cons_of_mem m member), List.contains_cons,
        Bool.or_assoc, Bool.beq_comm]

theorem scanModifiers_unfinished (ends : Unfinished tail) (eq : Bool) :
    scanModifiers false eq tail = (eq, []) := by
  cases ends with
  | nil => rfl
  | pad pads =>
      have scans := scanModifiers_padBody pads eq []
      rw [List.append_nil] at scans
      rw [scanModifiers_opens, scans]
      rfl
  | escape pads =>
      rw [List.cons_append, scanModifiers_opens, scanModifiers_padBody pads]
      rfl

theorem modifier_head {m : Str} (modifier : Modifier m) (s : Str) :
    m ++ s ≠ [] ∧ (m ++ s).head? ≠ some 37 := by
  cases modifier with
  | letter known =>
      refine ⟨List.cons_ne_nil _ _, fun percent => ?_⟩
      rw [Option.some.inj percent] at known
      cases known
  | pad pads => exact ⟨List.cons_ne_nil _ _, fun percent => by cases percent⟩

/-- The pre-scan counts what the grammar does. -/
theorem countFrom_eq (loosely : Loosely s n) (enough : s.length ≤ fuel) :
    countFrom fuel s = n := by
  induction loosely generalizing fuel with
  | nil => cases fuel <;> rfl
  | last =>
      obtain ⟨fuel, rfl⟩ := Nat.exists_eq_add_of_le' enough
      rw [List.length_singleton, countFrom, if_pos (.inr rfl)]
      cases fuel <;> rfl
  | text plain rest ih =>
      cases fuel with
      | zero => cases enough
      | succ fuel =>
          rw [countFrom, if_pos (.inl plain)]
          exact ih (Nat.le_of_succ_le_succ enough)
  | percent rest ih =>
      cases fuel with
      | zero => cases enough
      | succ fuel =>
          exact ih ((Nat.le_succ _).trans (Nat.le_of_succ_le_succ enough))
  | @directive modifiers spec s n known unknown quote percent rest ih =>
      cases fuel with
      | zero => cases enough
      | succ fuel =>
          have bound : s.length ≤ fuel := by
            rw [List.length_cons, List.length_append, List.length_cons] at enough
            omega
          have scans := scanModifiers_modifiers known false (spec :: s)
          rw [Bool.false_or, scanModifiers_spec quote unknown] at scans
          have single : modifiers.flatten ++ spec :: s ≠ [] ∧
              (modifiers.flatten ++ spec :: s).head? ≠ some 37 := by
            cases modifiers with
            | nil =>
                refine ⟨List.cons_ne_nil _ _, fun head => ?_⟩
                exact percent rfl (Option.some.inj head)
            | cons m modifiers =>
                rw [List.flatten_cons, List.append_assoc]
                exact modifier_head (known m List.mem_cons_self) _
          rw [countFrom_directive single.1 single.2, scans]
          dsimp only
          rw [ih bound]
  | @unfinished modifiers tail known ends =>
      cases fuel with
      | zero => cases enough
      | succ fuel =>
          have scans := scanModifiers_modifiers known false tail
          rw [scanModifiers_unfinished ends] at scans
          by_cases empty : modifiers.flatten ++ tail = []
          · rw [empty, countFrom, if_pos (.inr rfl)]
            cases fuel <;> rfl
          · have single : (modifiers.flatten ++ tail).head? ≠ some 37 := by
              cases modifiers with
              | nil =>
                  cases ends with
                  | nil => exact absurd rfl empty
                  | pad pads => exact fun head => by cases head
                  | escape pads => exact fun head => by cases head
              | cons m modifiers =>
                  rw [List.flatten_cons, List.append_assoc]
                  exact (modifier_head (known m List.mem_cons_self) _).2
            rw [countFrom_directive empty single, scans]

/-- The pre-scan counts the columns of the one reading that a format has. -/
theorem loosely_iff (f : Str) (n : Nat) : Loosely f n ↔ countColStringSpecs f = n := by
  constructor
  · exact fun loosely => countFrom_eq loosely (Nat.le_refl f.length)
  · rintro rfl
    obtain ⟨n, loosely⟩ := exists_loosely f.length f (Nat.le_refl f.length)
    rw [countColStringSpecs, countFrom_eq loosely (Nat.le_refl f.length)]
    exact loosely

/-!
## How the main scan reads a directive

What a directive is depends on the arguments through the numbers of its `*`s only.  So a format
can be read without arguments, with a 1 for each `*`; and with ones for them the arguments give
the same directive.
-/

open Kjdmud.StateExcept (except_bind_eq_ok)
open Kjdmud.Vm (Value)

variable {s rest : Str} {d d' e : Directive} {args args' : List Value}

/-- A 1 for each `*`. -/
def anyInt (_message : Str) (nothing : Unit) : Except Str (Int32 × Unit) :=
  .ok (1, nothing)

/-! ## What is left of a format -/

theorem readFlags_suffix (d : Directive) (s : Str) : (readFlags d s).2 <:+ s := by
  induction s generalizing d with
  | nil => exact List.suffix_refl []
  | cons c s ih =>
      rw [readFlags]
      split
      · exact (ih _).trans (List.suffix_cons c s)
      · exact List.suffix_refl (c :: s)

theorem padText_suffix {text : Str} (reads : padText s = some (text, rest)) : rest <:+ s := by
  induction s using List.twoStepInduction generalizing text with
  | nil => cases reads
  | singleton c =>
      rw [padText.eq_def] at reads
      dsimp only at reads
      split at reads
      · cases reads
      · split at reads
        · cases reads
          exact List.suffix_cons c []
        · cases reads
  | cons_cons c e s ih ih' =>
      rw [padText.eq_def] at reads
      dsimp only at reads
      split at reads
      · obtain ⟨⟨body, behind⟩, pads, same⟩ := Option.map_eq_some_iff.mp reads
        cases same
        exact (ih pads).trans ((List.suffix_cons e s).trans (List.suffix_cons c (e :: s)))
      · split at reads
        · cases reads
          exact List.suffix_cons c (e :: s)
        · obtain ⟨⟨body, behind⟩, pads, same⟩ := Option.map_eq_some_iff.mp reads
          cases same
          exact (ih' e pads).trans (List.suffix_cons c (e :: s))

theorem readDigits_suffix (n : Int32) (s : Str) : (readDigits n s).2 <:+ s := by
  induction s generalizing n with
  | nil => exact List.suffix_refl []
  | cons c s ih =>
      rw [readDigits]
      split
      · exact (ih _).trans (List.suffix_cons c s)
      · exact List.suffix_refl (c :: s)

/-! ## The parts of a scan -/

/-- Two directives that differ in the numbers of their `*`s at most. -/
structure Alike (d d' : Directive) : Prop where
  arrayMode : d'.arrayMode = d.arrayMode
  colMode : d'.colMode = d.colMode
  spec : d'.spec = d.spec
  wide : 0 < d.fieldWidth.getD 0 → 0 < d'.fieldWidth.getD 0

theorem Alike.refl (d : Directive) : Alike d d :=
  ⟨rfl, rfl, rfl, id⟩

/-- A change that keeps directives alike. -/
def Uniform (change change' : Directive → Directive) : Prop :=
  ∀ d d', Alike d d' → Alike (change d) (change' d')

/-- A part of a scan, whatever gives a `*` its number. -/
abbrev Part : Type 1 :=
  {σ : Type} → (Str → σ → Except Str (Int32 × σ)) → Directive → Str → σ →
    Except Str (Directive × Str × σ)

/-- What a part of a scan can do at some place: change the directive without a number from
outside, or with one, or fail. -/
inductive Part.Does (part : Part) (s : Str) : Prop
  | plain (change : Directive → Directive) (rest : Str) (suffix : rest <:+ s)
      (uniform : Uniform change change)
      (does : ∀ {σ : Type} (fetch : Str → σ → Except Str (Int32 × σ)) (d : Directive) (args : σ),
        part fetch d s args = .ok (change d, rest, args))
  | star (change : Int32 → Directive → Directive) (rest message : Str) (suffix : rest <:+ s)
      (uniform : ∀ n, Uniform (change n) (change 1))
      (does : ∀ {σ : Type} (fetch : Str → σ → Except Str (Int32 × σ)) (d : Directive) (args : σ),
        part fetch d s args = do
          let (n, args) ← fetch message args
          .ok (change n d, rest, args))
  | fails (message : Str)
      (does : ∀ {σ : Type} (fetch : Str → σ → Except Str (Int32 × σ)) (d : Directive) (args : σ),
        part fetch d s args = .error message)

/-- What a part reads with arguments it reads without; and what it reads without arguments it
reads with ones for its `*`s. -/
structure Part.Regular (part : Part) : Prop where
  agrees : ∀ {d s args e rest args'}, part takeInt d s args = .ok (e, rest, args') →
    rest <:+ s ∧ args' <:+ args ∧
      ∀ d', Alike d d' → ∃ e', part anyInt d' s () = .ok (e', rest, ()) ∧ Alike e e'
  stars : ∀ {d s e rest}, part anyInt d s () = .ok (e, rest, ()) →
    ∃ stars : List Value, ∀ args, part takeInt d s (stars ++ args) = .ok (e, rest, args)

theorem takeInt_suffix {message : Str} {n : Int32} (takes : takeInt message args = .ok (n, args')) :
    args' <:+ args := by
  unfold takeInt at takes
  split at takes
  · cases takes
    exact List.suffix_cons _ _
  · cases takes

theorem Part.Regular.of_does {part : Part} (does : ∀ s, part.Does s) : part.Regular where
  agrees {d s args e rest args'} reads := by
    cases does s with
    | plain change rest suffix uniform does =>
        rw [does] at reads
        cases reads
        exact ⟨suffix, List.suffix_refl _, fun d' alike =>
          ⟨change d', does anyInt d' (), uniform d d' alike⟩⟩
    | star change rest message suffix uniform does =>
        rw [does] at reads
        obtain ⟨⟨n, others⟩, takes, reads⟩ := except_bind_eq_ok.mp reads
        cases reads
        exact ⟨suffix, takeInt_suffix takes, fun d' alike =>
          ⟨change 1 d', does anyInt d' (), uniform n d d' alike⟩⟩
    | fails message does =>
        rw [does] at reads
        cases reads
  stars {d s e rest} reads := by
    cases does s with
    | plain change rest suffix uniform does =>
        rw [does] at reads
        cases reads
        exact ⟨[], does takeInt d⟩
    | star change rest message suffix uniform does =>
        rw [does] at reads
        cases reads
        exact ⟨[Value.int 1], fun args => does takeInt d (Value.int 1 :: args)⟩
    | fails message does =>
        rw [does] at reads
        cases reads

/-- One part of a scan behind another. -/
def Part.andThen (part part' : Part) : Part := fun fetch d s args => do
  let (d, s, args) ← part fetch d s args
  part' fetch d s args

theorem Part.Regular.andThen {part part' : Part} (regular : part.Regular)
    (regular' : part'.Regular) : Part.Regular (Part.andThen part part') where
  agrees reads := by
    obtain ⟨⟨d₁, s₁, args₁⟩, first, second⟩ := except_bind_eq_ok.mp reads
    obtain ⟨suffix, fewer, any⟩ := regular.agrees first
    obtain ⟨suffix', fewer', any'⟩ := regular'.agrees second
    refine ⟨suffix'.trans suffix, fewer'.trans fewer, fun d' alike => ?_⟩
    obtain ⟨e, reads, alike⟩ := any d' alike
    obtain ⟨e', reads', alike'⟩ := any' e alike
    exact ⟨e', except_bind_eq_ok.mpr ⟨_, reads, reads'⟩, alike'⟩
  stars reads := by
    obtain ⟨⟨d₁, s₁, ⟨⟩⟩, first, second⟩ := except_bind_eq_ok.mp reads
    obtain ⟨stars, gives⟩ := regular.stars first
    obtain ⟨stars', gives'⟩ := regular'.stars second
    refine ⟨stars ++ stars', fun args => ?_⟩
    have front := gives (stars' ++ args)
    rw [← List.append_assoc] at front
    exact except_bind_eq_ok.mpr ⟨(d₁, s₁, stars' ++ args), front, gives' args⟩

/-! ## The parts of a directive -/

/-- `parsePadQuote` as a part of the scan. -/
def padPart : Part := fun _ d s args => do
  let (d, s) ← parsePadQuote d s
  .ok (d, s, args)

theorem padPart_does (s : Str) : Part.Does padPart s := by
  unfold padPart parsePadQuote
  by_cases quote : s.head? = some 39
  · cases pads : padText s.tail with
    | none =>
        apply Part.Does.fails (str "sprintf: unterminated pad string")
        intro σ fetch d args
        rw [if_pos quote, pads]
        rfl
    | some result =>
        obtain ⟨text, rest⟩ := result
        cases text with
        | nil =>
            apply Part.Does.fails (str "sprintf: empty pad string")
            intro σ fetch d args
            rw [if_pos quote, pads]
            rfl
        | cons c text =>
            apply Part.Does.plain (fun d => { d with padStr := some (c :: text) }) rest
            · exact (padText_suffix pads).trans (List.tail_suffix s)
            · exact fun _ _ alike => ⟨alike.arrayMode, alike.colMode, alike.spec, alike.wide⟩
            · intro σ fetch d args
              rw [if_pos quote, pads]
              rfl
  · apply Part.Does.plain id s (List.suffix_refl s) (fun _ _ alike => alike)
    intro σ fetch d args
    rw [if_neg quote]
    rfl

theorem uniform_zeroed : Uniform Directive.zeroed Directive.zeroed :=
  fun _ _ alike => ⟨alike.arrayMode, alike.colMode, alike.spec, alike.wide⟩

theorem clamped_one : 0 < clamped 1 := by
  decide

theorem readSize_does (s : Str) : Part.Does readSize s := by
  by_cases star : s.head? = some 42
  · apply Part.Does.star (fun n d => { d with fieldWidth := some (clamped n) }) s.tail
      (str "sprintf: '*' field width argument is not an int")
    · exact List.tail_suffix s
    · exact fun n d d' alike =>
        ⟨alike.arrayMode, alike.colMode, alike.spec, fun _ => clamped_one⟩
    · exact fun fetch d args => if_pos star
  · have zeros : Uniform (fun d => if s.head? = some 48 then d.zeroed else d)
        (fun d => if s.head? = some 48 then d.zeroed else d) := by
      intro d d' alike
      dsimp only
      split
      · exact uniform_zeroed d d' alike
      · exact alike
    cases digits : s.head?.any Decimal.isDigit with
    | true =>
        apply Part.Does.plain (fun d => { (if s.head? = some 48 then d.zeroed else d) with
          fieldWidth := some (readDigits 0 s).1 }) (readDigits 0 s).2 (readDigits_suffix 0 s)
        · intro d d' alike
          have zeroed := zeros d d' alike
          exact ⟨zeroed.arrayMode, zeroed.colMode, zeroed.spec, id⟩
        · intro σ fetch d args
          rw [readSize, if_neg star]
          dsimp only
          rw [if_pos digits]
    | false =>
        apply Part.Does.plain _ s (List.suffix_refl s) zeros
        intro σ fetch d args
        rw [readSize, if_neg star]
        dsimp only
        rw [digits, if_neg Bool.false_ne_true]

/-- A part that another change comes before. -/
theorem Part.Does.before {part part' : Part} {change : Directive → Directive}
    (does : part.Does rest) (uniform : Uniform change change) (suffix : rest <:+ s)
    (same : ∀ {σ : Type} (fetch : Str → σ → Except Str (Int32 × σ)) (d : Directive) (args : σ),
      part' fetch d s args = part fetch (change d) rest args) : part'.Does s := by
  cases does with
  | plain change' rest' suffix' uniform' does =>
      apply Part.Does.plain (change' ∘ change) rest' (suffix'.trans suffix)
      · exact fun d d' alike => uniform' _ _ (uniform d d' alike)
      · exact fun fetch d args => (same fetch d args).trans (does fetch (change d) args)
  | star change' rest' message suffix' uniform' does =>
      apply Part.Does.star (fun n => change' n ∘ change) rest' message (suffix'.trans suffix)
      · exact fun n d d' alike => uniform' n _ _ (uniform d d' alike)
      · exact fun fetch d args => (same fetch d args).trans (does fetch (change d) args)
  | fails message does =>
      apply Part.Does.fails message
      exact fun fetch d args => (same fetch d args).trans (does fetch (change d) args)

theorem readWidth_does (s : Str) : Part.Does readWidth s := by
  by_cases zero : s.take 2 = [48, 42]
  · apply (readSize_does s.tail).before uniform_zeroed (List.tail_suffix s)
    exact fun fetch d args => if_pos zero
  · apply (readSize_does s).before (fun _ _ alike => alike) (List.suffix_refl s)
    exact fun fetch d args => if_neg zero

theorem readPrecision_does (s : Str) : Part.Does readPrecision s := by
  by_cases point : s.head? = some 46
  · by_cases star : s.tail.head? = some 42
    · apply Part.Does.star (fun n d => { d with precision := some (clamped n) }) s.tail.tail
        (str "sprintf: '.*' precision argument is not an int")
      · exact (List.tail_suffix _).trans (List.tail_suffix s)
      · exact fun n d d' alike => ⟨alike.arrayMode, alike.colMode, alike.spec, alike.wide⟩
      · exact fun fetch d args => (if_pos point).trans (if_pos star)
    · cases digits : s.tail.head?.any Decimal.isDigit with
      | true =>
          apply Part.Does.plain (fun d => { d with precision := some (readDigits 0 s.tail).1 })
            (readDigits 0 s.tail).2
          · exact (readDigits_suffix 0 s.tail).trans (List.tail_suffix s)
          · exact fun d d' alike => ⟨alike.arrayMode, alike.colMode, alike.spec, alike.wide⟩
          · intro σ fetch d args
            rw [readPrecision, if_pos point, if_neg star, if_pos digits]
      | false =>
          apply Part.Does.fails (str "sprintf: expected precision digits after '.'")
          intro σ fetch d args
          rw [readPrecision, if_pos point, if_neg star, digits, if_neg Bool.false_ne_true]
  · apply Part.Does.plain id s (List.suffix_refl s) (fun _ _ alike => alike)
    exact fun fetch d args => if_neg point

/-- `readSpec` as a part of the scan. -/
def specPart : Part := fun _ d s args => .ok ((readSpec d s).1, (readSpec d s).2, args)

theorem specPart_does (s : Str) : Part.Does specPart s := by
  unfold specPart readSpec
  by_cases array : s.head? = some 64
  · apply Part.Does.plain (fun d => { d with arrayMode := true, spec := s.tail.headD 0 })
      s.tail.tail
    · exact (List.tail_suffix _).trans (List.tail_suffix s)
    · exact fun d d' alike => ⟨rfl, alike.colMode, rfl, alike.wide⟩
    · intro σ fetch d args
      rw [if_pos array]
  · apply Part.Does.plain (fun d => { d with spec := s.headD 0 }) s.tail (List.tail_suffix s)
    · exact fun d d' alike => ⟨alike.arrayMode, alike.colMode, rfl, alike.wide⟩
    · intro σ fetch d args
      rw [if_neg array]

/-- What stands behind the flags. -/
def behindFlags : Part :=
  Part.andThen padPart (Part.andThen readWidth (Part.andThen padPart (Part.andThen readPrecision
    (Part.andThen padPart specPart))))

theorem regular_behindFlags : Part.Regular behindFlags := by
  have pad := Part.Regular.of_does padPart_does
  exact pad.andThen ((Part.Regular.of_does readWidth_does).andThen (pad.andThen
    ((Part.Regular.of_does readPrecision_does).andThen (pad.andThen (.of_does specPart_does)))))

/-! ## A directive -/

theorem readDirective_eq {σ : Type} (fetch : Str → σ → Except Str (Int32 × σ)) (s : Str)
    (args : σ) : readDirective fetch s args =
      behindFlags fetch (readFlags {} s).1 (readFlags {} s).2 args := by
  unfold readDirective behindFlags Part.andThen padPart specPart
  simp only [bind, Except.bind]
  generalize readFlags {} s = read
  obtain ⟨d, s⟩ := read
  dsimp only
  cases parsePadQuote d s with
  | error message => rfl
  | ok read =>
      obtain ⟨d, s⟩ := read
      dsimp only
      cases readWidth fetch d s args with
      | error message => rfl
      | ok read =>
          obtain ⟨d, s, args⟩ := read
          dsimp only
          cases parsePadQuote d s with
          | error message => rfl
          | ok read =>
              obtain ⟨d, s⟩ := read
              dsimp only
              cases readPrecision fetch d s args with
              | error message => rfl
              | ok read =>
                  obtain ⟨d, s, args⟩ := read
                  dsimp only
                  cases parsePadQuote d s with
                  | error message => rfl
                  | ok read => rfl

/-- What is read with arguments is read without. -/
theorem readDirective_agrees (reads : readDirective takeInt s args = .ok (e, rest, args')) :
    rest <:+ s ∧ args' <:+ args ∧
      ∃ e', readDirective anyInt s () = .ok (e', rest, ()) ∧ Alike e e' := by
  rw [readDirective_eq] at reads ⊢
  obtain ⟨suffix, fewer, any⟩ := regular_behindFlags.agrees reads
  exact ⟨suffix.trans (readFlags_suffix {} s), fewer, any _ (.refl _)⟩

/-- What is read without arguments is read with ones for the `*`s. -/
theorem readDirective_stars (reads : readDirective anyInt s () = .ok (e, rest, ())) :
    ∃ stars : List Value, ∀ args, readDirective takeInt s (stars ++ args) =
      .ok (e, rest, args) := by
  rw [readDirective_eq] at reads
  obtain ⟨stars, gives⟩ := regular_behindFlags.stars reads
  exact ⟨stars, fun args => (readDirective_eq takeInt s _).trans (gives args)⟩

end Kjdmud.Efun.Sprintf
