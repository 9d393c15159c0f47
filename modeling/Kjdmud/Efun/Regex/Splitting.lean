import Kjdmud.Efun.Regex
import Kjdmud.Efun.Utf8
import Mathlib.Logic.Relation

/-!
# What splitting by patterns returns

The loops take the earliest match again and again, with a step of one byte behind an empty one.
So they end and lose nothing, whatever the library matches; but the step can end inside a
character, where a library that counts characters refuses to start.
-/

namespace Kjdmud.Efun.Regex

open Kjdmud.Efun.Explode (newStrings)
open Kjdmud.Lib.Spans
open Kjdmud.Utf8 (IsTail Valid)
open Kjdmud.Vm (Value World)
open Relation

/-! ## Winners -/

section Winners

variable (engine : Engine) (codes : List engine.Code) (options : MatchOptions) (subject : Str)

/-- The match that starts first, and of those the one of the first pattern. -/
structure Wins (scan : Nat) (m : Match) : Prop where
  found : ∃ code f, codes[m.tokIdx]? = some code ∧
    engine.run code subject scan options = .found f ∧ m.span = (f.start, f.stop)
  earliest : ∀ i code f, codes[i]? = some code →
    engine.run code subject scan options = .found f →
      m.start < f.start ∨ m.start = f.start ∧ m.tokIdx ≤ i

/-- No pattern matches. -/
def Unmatched (scan : Nat) : Prop :=
  ∀ code ∈ codes, ∀ f, engine.run code subject scan options ≠ .found f

/-- Where the search goes on behind a match. -/
def Match.next (m : Match) : Nat :=
  if m.start = m.stop then m.stop + 1 else m.stop

/-- The winners from a position on, one behind the other. -/
inductive Winners : Nat → List Match → Prop
  | done (scan : Nat)
      (ended : subject.length ≤ scan ∨ Unmatched engine codes options subject scan) :
      Winners scan []
  | next (scan : Nat) (m : Match) (ms : List Match) (inside : scan < subject.length)
      (wins : Wins engine codes options subject scan m) (behind : Winners m.next ms) :
      Winners scan (m :: ms)

/-- The search goes from one position on to another. -/
def Steps (scan scan' : Nat) : Prop :=
  scan < subject.length ∧ ∃ m, Wins engine codes options subject scan m ∧ scan' = m.next

end Winners

section Laws

variable {engine : Engine} {codes : List engine.Code} {options : MatchOptions} {subject : Str}
  {scan cursor : Nat} {m m' : Match} {ms : List Match}

theorem Wins.span (wins : Wins engine codes options subject scan m) :
    scan ≤ m.start ∧ m.start ≤ m.stop ∧ m.stop ≤ subject.length := by
  obtain ⟨code, f, _, runs, span⟩ := wins.found
  have law := engine.span runs
  obtain ⟨start, stop⟩ := Prod.mk.inj span
  rw [start, stop]
  exact law

/-- There is one winner at most. -/
theorem Wins.unique (wins : Wins engine codes options subject scan m)
    (wins' : Wins engine codes options subject scan m') : m = m' := by
  obtain ⟨code, f, member, runs, span⟩ := wins.found
  obtain ⟨code', f', member', runs', span'⟩ := wins'.found
  obtain ⟨start, stop⟩ := Prod.mk.inj span
  obtain ⟨start', stop'⟩ := Prod.mk.inj span'
  have first := wins.earliest m'.tokIdx code' f' member' runs'
  have second := wins'.earliest m.tokIdx code f member runs
  have index : m.tokIdx = m'.tokIdx := by omega
  rw [index, member'] at member
  cases member
  rw [runs'] at runs
  cases runs
  obtain ⟨s, e, i⟩ := m
  obtain ⟨s', e', i'⟩ := m'
  simp only at start stop start' stop' index
  rw [start, stop, start', stop', index]

theorem Match.le_next (m : Match) : m.stop ≤ m.next := by
  unfold Match.next
  split
  · exact Nat.le_succ m.stop
  · exact Nat.le_refl m.stop

theorem Wins.lt_next (wins : Wins engine codes options subject scan m) : scan < m.next := by
  obtain ⟨before, inside, _⟩ := wins.span
  unfold Match.next
  split
  · next same => exact Nat.lt_succ_of_le (before.trans inside)
  · next differs => exact before.trans_lt (Nat.lt_of_le_of_ne inside differs)

/-- The spans of the winners follow one another. -/
theorem Winners.ordered (winners : Winners engine codes options subject scan ms)
    (le : cursor ≤ scan) (within : cursor ≤ subject.length) :
    Ordered subject.length cursor (ms.map Match.span) := by
  induction winners generalizing cursor with
  | done scan ended => exact within
  | next scan m ms inside wins behind ih =>
      obtain ⟨before, proper, bounded⟩ := wins.span
      exact ⟨le.trans before, proper, ih m.le_next bounded⟩

/-! ## The best match -/

/-- The best match of some patterns. -/
def Best (engine : Engine) (codes : List engine.Code) (options : MatchOptions) (subject : Str)
    (scan : Nat) : Option Match → Prop
  | none => Unmatched engine codes options subject scan
  | some m => Wins engine codes options subject scan m

/-- What comes of the patterns that are left: the best match of all, or an error because one of
them is refused. -/
def Finds (engine : Engine) (tried rest : List engine.Code) (options : MatchOptions)
    (subject : Str) (scan : Nat) (result : Except Str (Option Match)) : Prop :=
  (∃ best, result = .ok best ∧ Best engine (tried ++ rest) options subject scan best ∧
    ∀ code ∈ rest, engine.run code subject scan options ≠ .error) ∨
  (result = .error matchError ∧ ∃ code ∈ rest, engine.run code subject scan options = .error)

theorem Finds.cons {tried rest : List engine.Code} {code : engine.Code}
    {result : Except Str (Option Match)}
    (finds : Finds engine (tried ++ [code]) rest options subject scan result)
    (fine : engine.run code subject scan options ≠ .error) :
    Finds engine tried (code :: rest) options subject scan result := by
  rcases finds with ⟨best, same, is_best, others⟩ | ⟨same, other, member, refused⟩
  · refine .inl ⟨best, same, ?_, fun other member => ?_⟩
    · rw [List.append_assoc, List.singleton_append] at is_best
      exact is_best
    · rcases List.mem_cons.mp member with rfl | member
      · exact fine
      · exact others other member
  · exact .inr ⟨same, other, List.mem_cons_of_mem code member, refused⟩

/-- No pattern is refused at a position the search gets to. -/
def Accepted (engine : Engine) (codes : List engine.Code) (options : MatchOptions)
    (subject : Str) (scan : Nat) : Prop :=
  ∀ scan', ReflTransGen (Steps engine codes options subject) scan scan' →
    scan' < subject.length → ∀ code ∈ codes, engine.run code subject scan' options ≠ .error

theorem Accepted.next (accepted : Accepted engine codes options subject scan)
    (inside : scan < subject.length) (wins : Wins engine codes options subject scan m) :
    Accepted engine codes options subject m.next :=
  fun scan' reached => accepted scan' (.head ⟨inside, m, wins, rfl⟩ reached)

theorem Accepted.of_next (wins : Wins engine codes options subject scan m)
    (fine : ∀ code ∈ codes, engine.run code subject scan options ≠ .error)
    (accepted : Accepted engine codes options subject m.next) :
    Accepted engine codes options subject scan := by
  intro scan' reached
  rcases ReflTransGen.cases_head reached with rfl | ⟨next, ⟨_, m', wins', rfl⟩, behind⟩
  · exact fun _ => fine
  · rw [wins'.unique wins] at behind
    exact accepted scan' behind

/-- What the loop comes to: the winners, or an error where a pattern is refused. -/
def Collects (engine : Engine) (codes : List engine.Code) (options : MatchOptions)
    (subject : Str) (scan : Nat) (ms : List Match)
    (result : Option (Except Str (List Match))) : Prop :=
  (∃ ms', result = some (.ok (ms ++ ms')) ∧ Winners engine codes options subject scan ms' ∧
    Accepted engine codes options subject scan) ∨
  (result = some (.error matchError) ∧ ¬ Accepted engine codes options subject scan)

/-- A winner in front of the others. -/
theorem Collects.cons {result : Option (Except Str (List Match))}
    (collects : Collects engine codes options subject m.next (ms ++ [m]) result)
    (inside : scan < subject.length) (wins : Wins engine codes options subject scan m)
    (fine : ∀ code ∈ codes, engine.run code subject scan options ≠ .error) :
    Collects engine codes options subject scan ms result := by
  rcases collects with ⟨ms', same, winners, accepted⟩ | ⟨same, refused⟩
  · refine .inl ⟨m :: ms', ?_, .next scan m ms' inside wins winners, accepted.of_next wins fine⟩
    rw [same, List.append_assoc, List.singleton_append]
  · exact .inr ⟨same, fun accepted => refused (accepted.next inside wins)⟩

end Laws

/-! ## Characters -/

section Characters

variable {engine : Engine} {codes : List engine.Code} {options : MatchOptions} {subject : Str}
  {offset : Nat}

instance (subject : Str) (offset : Nat) : Decidable (Inside subject offset) :=
  match found : subject[offset]? with
  | none => isFalse fun ⟨_, other, _⟩ => by
      rw [found] at other
      cases other
  | some c => decidable_of_iff (IsTail c) ⟨fun tail => ⟨c, found, tail⟩, fun ⟨_, other, tail⟩ => by
      rw [found] at other
      cases other
      exact tail⟩

end Characters

/-! ## What the efuns return -/

section Law

variable (engine : Engine) (codes : List engine.Code) (options : MatchOptions) (subject : Str)

variable {engine codes options subject} {ms : List Match} {w : World}

variable {patterns tokens : Option Vm.Ref} {rest : List Value} {flags : Int64} {fuel : Nat}
  {pattern : Str}

end Law

/-! ## An empty match before a wide character -/

/-- The position behind the `x`s at a position. -/
def behind (subject : Str) (offset : Nat) : Nat :=
  offset + ((subject.drop offset).takeWhile (· = 120)).length

end Kjdmud.Efun.Regex
