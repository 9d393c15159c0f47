import Kjdmud.Efun.ParserPackage
import Kjdmud.Lib.StateExcept

/-!
# Rules keep their words

A registration replaces the list of literal words for every rule.  As long as each list agrees
with the one before at the literals of the rules that are registered, every rule keeps the
words it was registered with; and as long as a refused synonym finds its entry, a call that
throws changes nothing.
-/

namespace Kjdmud.Efun.ParserPackage

open Kjdmud.StateExcept (except_bind_eq_ok)

/-! ## Tokens of a rule -/

/-- A token name never becomes a literal. -/
theorem applyModifier_literalIndex {token changed : Token} {letter : UInt8}
    (name : token.literalIndex = none) (applied : applyModifier token letter = .ok changed) :
    changed.literalIndex = none := by
  cases token with
  | object m =>
      have named : ∀ m', (Except.ok (.object m') : Except Str Token) = .ok changed →
          changed.literalIndex = none := by
        intro m' same
        cases same
        rfl
      simp only [applyModifier] at applied
      by_cases living : letter = 0x6c
      · rw [if_pos living] at applied
        exact named _ applied
      · rw [if_neg living] at applied
        by_cases visOnly : letter = 0x76
        · rw [if_pos visOnly] at applied
          exact named _ applied
        · rw [if_neg visOnly] at applied
          by_cases plural : letter = 0x70
          · rw [if_pos plural] at applied
            exact named _ applied
          · rw [if_neg plural] at applied
            by_cases choose : letter = 0x63
            · rw [if_pos choose] at applied
              exact named _ applied
            · rw [if_neg choose] at applied
              cases applied
  | str =>
      cases applied
      rfl
  | wrd =>
      cases applied
      rfl
  | literal index => cases name

theorem foldlM_applyModifier {token changed : Token} {letters : Str}
    (name : token.literalIndex = none)
    (applied : letters.foldlM applyModifier token = .ok changed) :
    changed.literalIndex = none := by
  induction letters generalizing token with
  | nil =>
      cases applied
      exact name
  | cons letter letters ih =>
      rw [List.foldlM_cons] at applied
      cases first : applyModifier token letter with
      | error e =>
          rw [first] at applied
          cases applied
      | ok next =>
          rw [first] at applied
          exact ih (applyModifier_literalIndex name first) applied

theorem readKeyword_literalIndex {word : Str} {token : Token}
    (read : readKeyword word = .ok (some token)) : token.literalIndex = none := by
  have named : ∀ td ∈ kTokenDefs, td.token.literalIndex = none := by decide
  unfold readKeyword at read
  split at read
  · split at read
    · cases read
    · rename_i td found
      have plain := named td (List.mem_of_find?_eq_some found)
      split at read
      · cases read
        exact plain
      · split at read
        · cases folded : (word.drop 4).foldlM applyModifier td.token with
          | error e =>
              rw [folded] at read
              cases read
          | ok changed =>
              rw [folded] at read
              cases read
              exact foldlM_applyModifier plain folded
        · cases read
  · cases read

/-- What is read as a literal: no token name, and the first literal word that is the same. -/
theorem tokenizeOne_eq_literal {literals : List Str} {word : Str} {index : Nat} :
    tokenizeOne literals word = .ok (.literal index) ↔
      readKeyword word = .ok none ∧ literals.findIdx? (· = word) = some index := by
  unfold tokenizeOne
  cases keyword : readKeyword word with
  | error e => simp [bind, Except.bind]
  | ok result =>
      cases result with
      | some named =>
          have name := readKeyword_literalIndex keyword
          simp only [bind, Except.bind, Except.ok.injEq, reduceCtorEq, false_and, iff_false]
          rintro rfl
          cases name
      | none => cases literals.findIdx? (· = word) <;> simp [bind, Except.bind]

/-- A literal is an index into the list. -/
theorem tokenizeOne_index {literals : List Str} {word : Str} {token : Token} {index : Nat}
    (read : tokenizeOne literals word = .ok token) (isLiteral : token.literalIndex = some index) :
    index < literals.length := by
  cases token with
  | literal i =>
      cases isLiteral
      exact (List.findIdx?_eq_some_iff_getElem.mp (tokenizeOne_eq_literal.mp read).2).1
  | str => cases isLiteral
  | wrd => cases isLiteral
  | object m => cases isLiteral

/-! ## Reading, word by word -/

/-- An object token in the plural. -/
def Token.isPlural : Token → Bool
  | .object m => m.plural
  | _ => false

/-- A token may stand behind so many object tokens and perhaps a plural one. -/
def Token.Fits (hasObj : Nat) (hasPlural : Bool) (token : Token) : Prop :=
  token.isObject → hasObj + 1 ≠ 3 ∧ ¬ (token.isPlural ∧ hasPlural)

/-- A token is put in front of what is read behind it. -/
theorem read_front_eq_ok {later : Except Str (List Token)} {token : Token}
    {tokens : List Token} : (later >>= fun others => .ok (token :: others)) = .ok tokens ↔
      ∃ others, later = .ok others ∧ tokens = token :: others := by
  rw [except_bind_eq_ok]
  refine exists_congr fun others => and_congr_right fun _ => ?_
  rw [Except.ok.injEq]
  exact eq_comm

/-- What is read from the rest of a rule, behind its next word. -/
theorem tokenizeLoop_of_word {literals : List Str} {slots hasObj : Nat} {hasPlural : Bool}
    {rule word rest : Str} {tokens : List Token} (next : nextWord rule = some (word, rest)) :
    tokenizeLoop literals (slots + 1) hasObj hasPlural rule = .ok tokens ↔
      ∃ token, tokenizeOne literals word = .ok token ∧ token.Fits hasObj hasPlural ∧
        ∃ others, tokenizeLoop literals slots (hasObj + token.isObject.toNat)
          (hasPlural || token.isPlural) rest = .ok others ∧ tokens = token :: others := by
  simp only [tokenizeLoop, next]
  rw [except_bind_eq_ok]
  refine exists_congr fun token => and_congr_right fun _ => ?_
  cases token with
  | object m =>
      by_cases third : hasObj + 1 = 3
      · simp [Token.Fits, Token.isObject, third]
      · by_cases second : m.plural = true ∧ hasPlural = true
        · simp [Token.Fits, Token.isObject, Token.isPlural, third, second]
        · simp only [third, second, if_false, read_front_eq_ok]
          simp [Token.Fits, Token.isObject, Token.isPlural, third, second]
  | str =>
      rw [read_front_eq_ok]
      simp [Token.Fits, Token.isObject, Token.isPlural]
  | wrd =>
      rw [read_front_eq_ok]
      simp [Token.Fits, Token.isObject, Token.isPlural]
  | literal index =>
      rw [read_front_eq_ok]
      simp [Token.Fits, Token.isObject, Token.isPlural]

theorem tokenizeLoop_of_none {literals : List Str} {slots hasObj : Nat} {hasPlural : Bool}
    {rule : Str} {tokens : List Token} (next : nextWord rule = none) :
    tokenizeLoop literals (slots + 1) hasObj hasPlural rule = .ok tokens ↔ tokens = [] := by
  simp only [tokenizeLoop, next, Except.ok.injEq]
  exact eq_comm

theorem tokenizeLoop_index {literals : List Str} {slots hasObj : Nat} {hasPlural : Bool}
    {rule : Str} {tokens : List Token} {index : Nat}
    (read : tokenizeLoop literals slots hasObj hasPlural rule = .ok tokens)
    (member : index ∈ literalIndices tokens) : index < literals.length := by
  induction slots generalizing hasObj hasPlural rule tokens with
  | zero => cases read
  | succ slots ih =>
      cases next : nextWord rule with
      | none =>
          rw [(tokenizeLoop_of_none next).mp read] at member
          cases member
      | some found =>
          obtain ⟨word, rest⟩ := found
          obtain ⟨token, first, _, others, later, rfl⟩ := (tokenizeLoop_of_word next).mp read
          unfold literalIndices at member
          rw [List.filterMap_cons] at member
          cases isLiteral : token.literalIndex with
          | none =>
              rw [isLiteral] at member
              exact ih later member
          | some i =>
              rw [isLiteral] at member
              rcases List.mem_cons.mp member with here | behind
              · exact here ▸ tokenizeOne_index first isLiteral
              · exact ih later behind

/-! ## Senses -/

/-- The text of a sense. -/
def senseText : Sense → Str
  | .keyword token => tokenText [] token
  | .word text => text.getD [] ++ str " "

/-- What a rule shows depends on its senses only. -/
theorem ruleString_eq (tokens : List Token) (literals : List Str) :
    ruleString tokens literals = ((tokens.map (interpret literals)).flatMap senseText).dropLast := by
  have each : ∀ token, tokenText literals token = senseText (interpret literals token) := by
    intro token
    cases token <;> rfl
  unfold ruleString
  rw [List.flatMap_map]
  exact congrArg List.dropLast (List.flatMap_congr fun token _ => each token)

theorem map_interpret_congr {tokens : List Token} {literals literals' : List Str}
    (agree : ∀ index ∈ literalIndices tokens, literals'[index]? = literals[index]?) :
    tokens.map (interpret literals') = tokens.map (interpret literals) := by
  apply List.map_congr_left
  intro token member
  cases token with
  | literal index =>
      have listed : index ∈ literalIndices tokens :=
        List.mem_filterMap.mpr ⟨.literal index, member, rfl⟩
      rw [interpret, interpret, agree index listed]
  | _ => rfl

/-! ## The invariant -/

/-- A rule means what it meant when it was registered. -/
structure NodeKept (literals : List Str) (node : VerbRuleNode) : Prop where
  senses : node.tokens.map (interpret literals) = node.registered
  lit : node.lit = (literalIndices node.tokens).take 2
  known : ∀ index ∈ literalIndices node.tokens, index < literals.length

theorem newNode_kept {rule : Str} {literals : List Str} {tokens : List Token}
    (handler : ObjectId) (read : tokenizeRule rule literals = .ok tokens) :
    NodeKept literals (newNode tokens handler literals) :=
  ⟨rfl, rfl, fun _ member => tokenizeLoop_index read member⟩

namespace Registry

def Kept (r : Registry) : Prop :=
  ∀ name node, r.Registered name node → NodeKept r.literals node

/-- A list of literal words has the words of the registered rules where the list in force has
them. -/
def Agree (r : Registry) (literals : List Str) : Prop :=
  ∀ name node, r.Registered name node → ∀ index ∈ literalIndices node.tokens,
    literals[index]? = r.literals[index]?

/-- Rules that stay keep their senses under a list that agrees. -/
theorem Kept.replace {r r' : Registry} (kept : r.Kept) (agree : r.Agree r'.literals)
    (rules : ∀ name node, r'.Registered name node →
      (∃ name, r.Registered name node) ∨ NodeKept r'.literals node) : r'.Kept := by
  intro name node registered
  rcases rules name node registered with ⟨name', old⟩ | new
  · have before := kept name' node old
    have same := agree name' node old
    refine ⟨?_, before.lit, ?_⟩
    · rw [map_interpret_congr same, before.senses]
    · intro index member
      have inside := before.known index member
      by_contra outside
      have missing : r'.literals[index]? = none :=
        List.getElem?_eq_none (Nat.le_of_not_lt outside)
      rw [same index member, List.getElem?_eq_getElem inside] at missing
      cases missing
  · exact new

/-! ## Tables -/

theorem registered_change {r : Registry} {name other : Str}
    {f : List VerbEntry → List VerbEntry} {node : VerbRuleNode}
    (registered : (r.change name f).Registered other node) :
    r.Registered other node ∨ ∃ e ∈ f ((r.verbs name).getD []), node ∈ e.nodes := by
  rcases registered with ⟨entries, there, e, member, held⟩
  by_cases same : other = name
  · apply Or.inr
    have here : (r.change name f).verbs other = some (f ((r.verbs name).getD [])) := if_pos same
    rw [here] at there
    cases there
    exact ⟨e, member, held⟩
  · apply Or.inl
    have here : (r.change name f).verbs other = r.verbs other := if_neg same
    rw [here] at there
    exact ⟨entries, there, e, member, held⟩

/-- The rules of a table after an entry was found or made and changed. -/
theorem mem_upsert {found : VerbEntry → Bool} {fresh e : VerbEntry}
    {change : VerbEntry → VerbEntry} {extra : List VerbRuleNode} {entries : List VerbEntry}
    {node : VerbRuleNode} (bare : fresh.nodes = [])
    (changes : ∀ e, ∀ node ∈ (change e).nodes, node ∈ extra ∨ node ∈ e.nodes)
    (member : e ∈ upsert found fresh change entries) (held : node ∈ e.nodes) :
    node ∈ extra ∨ ∃ e ∈ entries, node ∈ e.nodes := by
  induction entries with
  | nil =>
      have same := List.mem_singleton.mp member
      rw [same] at held
      rcases changes fresh node held with new | old
      · exact .inl new
      · rw [bare] at old
        cases old
  | cons first entries ih =>
      rw [upsert] at member
      split at member
      · rcases List.mem_cons.mp member with rfl | later
        · exact (changes first node held).imp id fun old => ⟨first, List.mem_cons_self, old⟩
        · exact .inr ⟨e, List.mem_cons_of_mem _ later, held⟩
      · rcases List.mem_cons.mp member with rfl | later
        · exact .inr ⟨e, List.mem_cons_self, held⟩
        · rcases ih later with new | ⟨e', inside, old⟩
          · exact .inl new
          · exact .inr ⟨e', List.mem_cons_of_mem _ inside, old⟩

theorem registered_of_entries {r : Registry} {name : Str} {e : VerbEntry} {node : VerbRuleNode}
    (member : e ∈ (r.verbs name).getD []) (held : node ∈ e.nodes) : r.Registered name node := by
  cases there : r.verbs name with
  | none =>
      rw [there] at member
      cases member
  | some entries =>
      rw [there] at member
      exact ⟨entries, there, e, member, held⟩

/-- The rules after an entry of a verb was found or made and changed. -/
theorem registered_upsert {r : Registry} {name other : Str} {found : VerbEntry → Bool}
    {fresh : VerbEntry} {change : VerbEntry → VerbEntry} {extra : List VerbRuleNode}
    {node : VerbRuleNode} (bare : fresh.nodes = [])
    (changes : ∀ e, ∀ node ∈ (change e).nodes, node ∈ extra ∨ node ∈ e.nodes)
    (registered : (r.change name (upsert found fresh change)).Registered other node) :
    node ∈ extra ∨ ∃ name, r.Registered name node := by
  rcases registered_change registered with old | ⟨e, member, held⟩
  · exact .inr ⟨other, old⟩
  · rcases mem_upsert bare changes member held with new | ⟨e', member, held⟩
    · exact .inl new
    · exact .inr ⟨name, registered_of_entries member held⟩

/-- A change that adds no rule adds none to the table. -/
theorem registered_upsert_same {r : Registry} {name other : Str} {found : VerbEntry → Bool}
    {fresh : VerbEntry} {change : VerbEntry → VerbEntry} {node : VerbRuleNode}
    (bare : fresh.nodes = []) (same : ∀ e, (change e).nodes = e.nodes)
    (registered : (r.change name (upsert found fresh change)).Registered other node) :
    ∃ name, r.Registered name node := by
  have changes : ∀ e, ∀ node ∈ (change e).nodes, node ∈ [] ∨ node ∈ e.nodes := by
    intro e node held
    rw [same e] at held
    exact .inr held
  rcases registered_upsert bare changes registered with new | old
  · cases new
  · exact old

/-- An entry that is found and not changed leaves the table as it is. -/
theorem upsert_id {found : VerbEntry → Bool} {fresh : VerbEntry} {entries : List VerbEntry}
    (exists_ : entries.any found = true) : upsert found fresh id entries = entries := by
  induction entries with
  | nil => cases exists_
  | cons e entries ih =>
      rw [upsert]
      split
      · rfl
      · rename_i other
        rw [List.any_cons, Bool.or_eq_true] at exists_
        rw [ih (exists_.resolve_left other)]

end Registry

end Kjdmud.Efun.ParserPackage
