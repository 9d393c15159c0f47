import Kjdmud.Efun.ParserPackage.Registry

/-!
# The law of the verb table

One call at a time: a call under its condition keeps the sense of every rule that is
registered, and changes nothing where it throws.  Runs follow by induction.
-/

namespace Kjdmud.Efun.ParserPackage

/-! ## Words -/

/-- A rule matches and prints the words it was registered with. -/
structure KeepsWords (literals : List Str) (node : VerbRuleNode) : Prop where
  prints : ruleString node.tokens literals = (node.registered.flatMap senseText).dropLast
  matches_ : ∀ (position index : Nat), node.tokens[position]? = some (.literal index) →
    ∃ word, node.registered[position]? = some (.word (some word)) ∧
      (∀ other, literalMatches literals index other = true ↔ other = word) ∧
        ∀ words start, checkLiteral words literals index start = behindWord words word start
  prefilter : node.lit = (literalIndices node.tokens).take 2

theorem NodeKept.words {literals : List Str} {node : VerbRuleNode}
    (kept : NodeKept literals node) : KeepsWords literals node where
  prints := by rw [ruleString_eq, kept.senses]
  matches_ := by
    intro position index here
    have listed : index ∈ literalIndices node.tokens :=
      List.mem_filterMap.mpr ⟨.literal index, List.mem_of_getElem? here, rfl⟩
    have inside := kept.known index listed
    have known : literals[index]? = some literals[index] := List.getElem?_eq_getElem inside
    refine ⟨literals[index], ?_, ?_, ?_⟩
    · rw [← kept.senses, List.getElem?_map, here]
      exact congrArg (fun word => some (Sense.word word)) known
    · intro other
      rw [literalMatches, known, decide_eq_true_iff]
      constructor
      · intro same
        exact (Option.some.inj same).symm
      · rintro rfl
        rfl
    · intro words start
      rw [checkLiteral, known]
  prefilter := kept.lit

/-- The verb that a registration adds to. -/
def Call.addsTo : Call → Option Str
  | .addRule verb _ _ _ => some verb
  | .addSynonym newVerb _ _ _ _ => some newVerb
  | _ => none

namespace Registry

/-! ## Steps -/

/-- `addSynonym` takes an entry that exists. -/
def HasSynonymEntry (r : Registry) (newVerb oldVerb : Str) : Prop :=
  ((r.verbs newVerb).getD []).any (isSynonymEntry newVerb oldVerb false) = true

/-- The rule is there under the old verb, and the caller owns it. -/
def OwnsRule (vb : VerbEntry) (rule : Str) (caller : ObjectId) (literals : List Str) : Prop :=
  ∃ tokens node, tokenizeRule rule literals = .ok tokens ∧
    vb.nodes.find? (fun n => n.tokens = tokens) = some node ∧ node.handler = caller

/-- The condition on a call: the literal words that it brings agree with those in force, and a
rule that it refuses to copy has its entry already. -/
def Clear (r : Registry) : Call → Prop
  | .addRule _ _ _ literals => r.Agree literals
  | .addSynonym newVerb oldVerb rule caller literals =>
      ∀ vb, rule ≠ [] → newVerb ≠ oldVerb → r.plainEntry oldVerb = some vb →
        r.Agree literals ∧
          (r.HasSynonymEntry newVerb oldVerb ∨ OwnsRule vb rule caller literals)
  | _ => True

theorem registered_literals {r : Registry} {literals : List Str} {name : Str}
    {node : VerbRuleNode} :
    ({ r with literals := literals } : Registry).Registered name node ↔ r.Registered name node :=
  Iff.rfl

theorem agree_change (r : Registry) (name : Str) (f : List VerbEntry → List VerbEntry) :
    r.Agree (r.change name f).literals :=
  fun _ _ _ _ _ => rfl

theorem prepend_nodes (node : VerbRuleNode) (e : VerbEntry) :
    ∀ n ∈ (e.prepend node).nodes, n ∈ [node] ∨ n ∈ e.nodes := by
  intro n member
  rcases List.mem_cons.mp member with rfl | old
  · exact .inl List.mem_cons_self
  · exact .inr old

/-- A rule that is there afterwards was there before, or has its words. -/
def Brings (r r' : Registry) : Prop :=
  ∀ name node, r'.Registered name node →
    (∃ name, r.Registered name node) ∨ NodeKept r'.literals node

theorem addRule_brings (r : Registry) (verb rule : Str) (handler : ObjectId)
    (literals : List Str) : r.Brings (r.addRule verb rule handler literals).1 := by
  unfold addRule
  cases read : tokenizeRule rule literals with
  | error e =>
      intro name node old
      exact .inl ⟨name, old⟩
  | ok tokens =>
      intro name node registered
      rcases registered_upsert rfl (prepend_nodes _) registered with new | ⟨name', old⟩
      · rw [List.mem_singleton.mp new]
        exact .inr (newNode_kept handler read)
      · exact .inl ⟨name', old⟩

theorem addRule_literals (r : Registry) (verb rule : Str) (handler : ObjectId)
    (literals : List Str) : (r.addRule verb rule handler literals).1.literals = literals := by
  unfold addRule
  cases tokenizeRule rule literals <;> rfl

/-- A rule that is copied is the rule found, and belongs to the caller. -/
theorem copied_ok {vb : VerbEntry} {oldVerb rule : Str} {caller : ObjectId} {literals : List Str}
    {node : VerbRuleNode} (copy : copied vb oldVerb rule caller literals = .ok node) :
    ∃ tokens found, tokenizeRule rule literals = .ok tokens ∧
      vb.nodes.find? (fun n => n.tokens = tokens) = some found ∧
        node = { found with registered := tokens.map (interpret literals) } := by
  unfold copied at copy
  cases read : tokenizeRule rule literals with
  | error e =>
      rw [read] at copy
      cases copy
  | ok tokens =>
      simp only [read, bind, Except.bind] at copy
      cases search : vb.nodes.find? fun n => n.tokens = tokens with
      | none =>
          rw [search] at copy
          cases copy
      | some found =>
          simp only [search] at copy
          by_cases other : found.handler ≠ caller
          · rw [if_pos other] at copy
            cases copy
          · rw [if_neg other] at copy
            cases copy
            exact ⟨tokens, found, rfl, search, rfl⟩

theorem plainEntry_registered {r : Registry} {verb : Str} {vb : VerbEntry} {node : VerbRuleNode}
    (plain : r.plainEntry verb = some vb) (held : node ∈ vb.nodes) : r.Registered verb node := by
  unfold plainEntry at plain
  rcases Option.bind_eq_some_iff.mp plain with ⟨entries, there, search⟩
  exact ⟨entries, there, vb, List.mem_of_find?_eq_some search, held⟩

/-- A copy has the tokens of its original. -/
theorem copied_kept {r : Registry} {vb : VerbEntry} {oldVerb rule : Str} {caller : ObjectId}
    {literals : List Str} {node : VerbRuleNode} (kept : r.Kept)
    (plain : r.plainEntry oldVerb = some vb)
    (copy : copied vb oldVerb rule caller literals = .ok node) : NodeKept literals node := by
  rcases copied_ok copy with ⟨tokens, found, read, search, rfl⟩
  have same : found.tokens = tokens := by
    simpa using List.find?_some search
  have old := kept oldVerb found (plainEntry_registered plain (List.mem_of_find?_eq_some search))
  constructor
  · rw [← same]
  · exact old.lit
  · intro index member
    have listed : index ∈ literalIndices tokens := same ▸ member
    exact tokenizeLoop_index read listed

theorem addSynonym_brings {r : Registry} (newVerb oldVerb rule : Str) (caller : ObjectId)
    (literals : List Str) (kept : r.Kept) :
    r.Brings (r.addSynonym newVerb oldVerb rule caller literals).1 := by
  unfold addSynonym
  by_cases itself : newVerb = oldVerb
  · rw [if_pos itself]
    intro name node old
    exact .inl ⟨name, old⟩
  · rw [if_neg itself]
    cases plain : r.plainEntry oldVerb with
    | none =>
        intro name node old
        exact .inl ⟨name, old⟩
    | some vb =>
        by_cases alias_ : rule = []
        · simp only [if_pos alias_]
          intro name node registered
          exact .inl (registered_upsert_same rfl (by intro e; rfl) registered)
        · simp only [if_neg alias_]
          cases copy : copied vb oldVerb rule caller literals with
          | error e =>
              intro name node registered
              exact .inl (registered_upsert_same rfl (by intro e; rfl)
                (registered_literals.mp registered))
          | ok copy_ =>
              intro name node registered
              rcases registered_upsert rfl (prepend_nodes _) registered with new | ⟨name', old⟩
              · rw [List.mem_singleton.mp new]
                exact .inr (copied_kept kept plain copy)
              · exact .inl (registered_upsert_same rfl (by intro e; rfl)
                  (registered_literals.mp old))

theorem addSynonym_agree {r : Registry} {newVerb oldVerb rule : Str} {caller : ObjectId}
    {literals : List Str} (clear : r.Clear (.addSynonym newVerb oldVerb rule caller literals)) :
    r.Agree (r.addSynonym newVerb oldVerb rule caller literals).1.literals := by
  unfold addSynonym
  by_cases itself : newVerb = oldVerb
  · rw [if_pos itself]
    intro _ _ _ _ _
    rfl
  · rw [if_neg itself]
    cases plain : r.plainEntry oldVerb with
    | none =>
        intro _ _ _ _ _
        rfl
    | some vb =>
        by_cases alias_ : rule = []
        · simp only [if_pos alias_]
          exact r.agree_change newVerb _
        · simp only [if_neg alias_]
          have agree := (clear vb alias_ itself plain).1
          cases copied vb oldVerb rule caller literals <;> exact agree

theorem without_nodes {handler : ObjectId} {e : VerbEntry} {node : VerbRuleNode}
    (held : node ∈ (e.without handler).nodes) : node ∈ e.nodes :=
  (List.mem_filter.mp held).1

theorem removeRules_registered {r : Registry} {verb name : Str} {handler : ObjectId}
    {node : VerbRuleNode} (registered : (r.removeRules verb handler).Registered name node) :
    ∃ name, r.Registered name node := by
  unfold removeRules at registered
  cases there : r.verbs verb with
  | none =>
      rw [there] at registered
      exact ⟨name, registered⟩
  | some entries =>
      rw [there] at registered
      rcases registered_change registered with old | ⟨e, member, held⟩
      · exact ⟨name, old⟩
      · rcases List.mem_map.mp member with ⟨before, inside, rfl⟩
        refine ⟨verb, registered_of_entries inside ?_⟩
        by_cases synonym : before.isSynonym = true
        · rw [if_pos synonym] at held
          exact held
        · rw [if_neg synonym] at held
          exact without_nodes held

theorem onObjectDestroyed_registered {r : Registry} {destructed : ObjectId} {name : Str}
    {node : VerbRuleNode} (registered : (r.onObjectDestroyed destructed).Registered name node) :
    ∃ name, r.Registered name node := by
  unfold onObjectDestroyed at registered
  by_cases handler : r.isVerbHandler destructed = true
  · rw [if_pos handler] at registered
    rcases registered with ⟨entries, there, e, member, held⟩
    rcases Option.map_eq_some_iff.mp there with ⟨before, here, rfl⟩
    rcases List.mem_map.mp member with ⟨e, inside, rfl⟩
    exact ⟨name, before, here, e, inside, without_nodes held⟩
  · rw [if_neg handler] at registered
    exact ⟨name, registered⟩

theorem onObjectDestroyed_literals (r : Registry) (destructed : ObjectId) :
    (r.onObjectDestroyed destructed).literals = r.literals := by
  unfold onObjectDestroyed
  by_cases handler : r.isVerbHandler destructed = true
  · rw [if_pos handler]
    rfl
  · rw [if_neg handler]
    rfl

theorem removeRules_literals (r : Registry) (verb : Str) (handler : ObjectId) :
    (r.removeRules verb handler).literals = r.literals := by
  unfold removeRules
  cases r.verbs verb <;> rfl

/-- A call under its condition brings words that agree. -/
theorem call_agree {r : Registry} {c : Call} (clear : r.Clear c) :
    r.Agree (r.call c).1.literals := by
  cases c with
  | addRule verb rule handler literals =>
      rw [call, addRule_literals]
      exact clear
  | addSynonym newVerb oldVerb rule caller literals => exact addSynonym_agree clear
  | removeRules verb handler =>
      intro _ _ _ _ _
      rw [call, removeRules_literals]
  | onObjectDestroyed destructed =>
      intro _ _ _ _ _
      rw [call, onObjectDestroyed_literals]
  | setParseInfo ob flags =>
      intro _ _ _ _ _
      rfl

theorem call_brings {r : Registry} (c : Call) (kept : r.Kept) : r.Brings (r.call c).1 := by
  cases c with
  | addRule verb rule handler literals => exact r.addRule_brings verb rule handler literals
  | addSynonym newVerb oldVerb rule caller literals =>
      exact addSynonym_brings newVerb oldVerb rule caller literals kept
  | removeRules verb handler =>
      intro name node registered
      exact .inl (removeRules_registered registered)
  | onObjectDestroyed destructed =>
      intro name node registered
      exact .inl (onObjectDestroyed_registered registered)
  | setParseInfo ob flags =>
      intro name node registered
      exact .inl ⟨name, registered⟩

theorem call_kept {r : Registry} {c : Call} (kept : r.Kept) (clear : r.Clear c) :
    (r.call c).1.Kept :=
  kept.replace (call_agree clear) (call_brings c kept)

/-! ## What one call leaves alone -/

/-- A call that throws leaves the verb table, every call the senses of the rules that were
there, and a registration the rules of the other verbs. -/
structure StepLaw (r : Registry) (c : Call) : Prop where
  atomic : (r.call c).2.isSome → (r.call c).1.verbs = r.verbs
  senses : ∀ name node, r.Registered name node →
    node.tokens.map (interpret (r.call c).1.literals) = node.tokens.map (interpret r.literals)
  others : ∀ verb name, c.addsTo = some verb → name ≠ verb →
    (r.call c).1.verbs name = r.verbs name

theorem change_of_ne {r : Registry} {verb name : Str} {f : List VerbEntry → List VerbEntry}
    (other : name ≠ verb) : (r.change verb f).verbs name = r.verbs name :=
  if_neg other

theorem call_others {r : Registry} {c : Call} {verb name : Str} (adds : c.addsTo = some verb)
    (other : name ≠ verb) : (r.call c).1.verbs name = r.verbs name := by
  cases c with
  | addRule verb' rule handler literals =>
      cases adds
      rw [call, addRule]
      cases tokenizeRule rule literals with
      | error e => rfl
      | ok tokens => exact change_of_ne other
  | addSynonym newVerb oldVerb rule caller literals =>
      cases adds
      rw [call, addSynonym]
      by_cases itself : verb = oldVerb
      · rw [if_pos itself]
      · rw [if_neg itself]
        cases r.plainEntry oldVerb with
        | none => rfl
        | some vb =>
            by_cases alias_ : rule = []
            · simp only [if_pos alias_]
              exact change_of_ne other
            · simp only [if_neg alias_]
              cases copied vb oldVerb rule caller literals with
              | error e => exact change_of_ne other
              | ok node => exact (change_of_ne other).trans (change_of_ne other)
  | removeRules verb handler => cases adds
  | onObjectDestroyed destructed => cases adds
  | setParseInfo ob flags => cases adds

/-- An entry that is there is no change. -/
theorem change_upsert_id {r : Registry} {newVerb oldVerb : Str} {fresh : VerbEntry}
    (exists_ : r.HasSynonymEntry newVerb oldVerb) :
    (r.change newVerb (upsert (isSynonymEntry newVerb oldVerb false) fresh id)).verbs
      = r.verbs := by
  funext name
  by_cases same : name = newVerb
  · have here : (r.change newVerb (upsert (isSynonymEntry newVerb oldVerb false) fresh id)).verbs
        name = some (upsert (isSynonymEntry newVerb oldVerb false) fresh id
          ((r.verbs newVerb).getD [])) := if_pos same
    rw [here, upsert_id exists_, same]
    cases there : r.verbs newVerb with
    | none =>
        unfold HasSynonymEntry at exists_
        rw [there] at exists_
        cases exists_
    | some entries => rfl
  · exact change_of_ne same

/-- Where the rule is there and the caller owns it, nothing is refused. -/
theorem OwnsRule.copies {vb : VerbEntry} {rule : Str} {caller : ObjectId} {literals : List Str}
    (owns : OwnsRule vb rule caller literals) (oldVerb : Str) :
    ∃ node, copied vb oldVerb rule caller literals = .ok node := by
  rcases owns with ⟨tokens, node, read, search, same⟩
  refine ⟨{ node with registered := tokens.map (interpret literals) }, ?_⟩
  unfold copied
  simp only [read, bind, Except.bind, search]
  rw [if_neg (not_not.mpr same)]

theorem call_atomic {r : Registry} {c : Call} (clear : r.Clear c)
    (throws : (r.call c).2.isSome) : (r.call c).1.verbs = r.verbs := by
  cases c with
  | addRule verb rule handler literals =>
      rw [call, addRule] at throws ⊢
      cases read : tokenizeRule rule literals with
      | error e => rfl
      | ok tokens =>
          rw [read] at throws
          cases throws
  | addSynonym newVerb oldVerb rule caller literals =>
      rw [call, addSynonym] at throws ⊢
      by_cases itself : newVerb = oldVerb
      · rw [if_pos itself]
      · rw [if_neg itself] at throws ⊢
        cases plain : r.plainEntry oldVerb with
        | none => rfl
        | some vb =>
            rw [plain] at throws
            by_cases alias_ : rule = []
            · simp only [if_pos alias_] at throws
              cases throws
            · simp only [if_neg alias_] at throws ⊢
              rcases (clear vb alias_ itself plain).2 with exists_ | owns
              · cases copy : copied vb oldVerb rule caller literals with
                | error e =>
                    have named : decide (rule = []) = false := decide_eq_false alias_
                    rw [named]
                    exact change_upsert_id exists_
                | ok node =>
                    rw [copy] at throws
                    cases throws
              · rcases owns.copies oldVerb with ⟨node, copy⟩
                rw [copy] at throws
                cases throws
  | removeRules verb handler => cases throws
  | onObjectDestroyed destructed => cases throws
  | setParseInfo ob flags => cases throws

theorem call_law {r : Registry} {c : Call} (clear : r.Clear c) : StepLaw r c where
  atomic := call_atomic clear
  senses name node registered := map_interpret_congr (call_agree clear name node registered)
  others _ _ adds other := call_others adds other

/-! ## Runs -/

/-- Every call of the list meets its condition in the state it finds. -/
def Clears : Registry → List Call → Prop
  | _, [] => True
  | r, c :: calls => r.Clear c ∧ Clears (r.call c).1 calls

theorem empty_kept : empty.Kept := by
  rintro name node ⟨entries, there, -⟩
  cases there

theorem after_kept {r : Registry} {calls : List Call} (kept : r.Kept) (clears : r.Clears calls) :
    (r.after calls).Kept := by
  induction calls generalizing r with
  | nil => exact kept
  | cons c calls ih => exact ih (call_kept kept clears.1) clears.2

theorem Clears.append {r : Registry} {before rest : List Call}
    (clears : r.Clears (before ++ rest)) :
    r.Clears before ∧ (r.after before).Clears rest := by
  induction before generalizing r with
  | nil => exact ⟨trivial, clears⟩
  | cons c before ih =>
      rcases ih clears.2 with ⟨front, behind⟩
      exact ⟨⟨clears.1, front⟩, behind⟩

/-- In a run whose calls all meet their condition, every rule that is registered matches and
prints the words it was registered with, in every state; and no call changes what it should leave
alone. -/
theorem registry_law (calls : List Call) (clears : empty.Clears calls) :
    ∀ before rest, calls = before ++ rest →
      (∀ name node, (empty.after before).Registered name node →
        KeepsWords (empty.after before).literals node) ∧
      ∀ c later, rest = c :: later → StepLaw (empty.after before) c := by
  rintro before rest rfl
  rcases clears.append with ⟨front, behind⟩
  constructor
  · intro name node registered
    exact (after_kept empty_kept front name node registered).words
  · rintro c later rfl
    exact call_law behind.1

theorem agree_empty (literals : List Str) : empty.Agree literals := by
  rintro name node ⟨entries, there, -⟩
  cases there

theorem agree_of_eq {r : Registry} {literals : List Str} (same : r.literals = literals) :
    r.Agree literals := by
  intro _ _ _ _ _
  rw [same]

/-- The words that the master supplies. -/
def prepositions : List Str :=
  [str "with", str "on"]

/-- A rule for `hit`, one for `put`, a verb that copies the first, and a rule that is refused. -/
def calmCalls : List Call :=
  [.addRule (str "hit") (str "OBJ with OBJ") 1 prepositions,
    .addRule (str "put") (str "OBJ on OBJ") 2 prepositions,
    .addSynonym (str "kick") (str "hit") (str "OBJ with OBJ") 1 prepositions,
    .addRule (str "hit") (str "OBJ frobnicated") 1 prepositions]

theorem calmCalls_clear : empty.Clears calmCalls := by
  have copy : ∀ vb, (empty.after (calmCalls.take 2)).plainEntry (str "hit") = some vb →
      OwnsRule vb (str "OBJ with OBJ") 1 prepositions := by
    intro vb plain
    cases plain
    exact ⟨[.object {}, .literal 0, .object {}], newNode [.object {}, .literal 0, .object {}] 1
      prepositions, rfl, rfl, rfl⟩
  constructor
  · exact agree_empty _
  · constructor
    · exact agree_of_eq (addRule_literals _ _ _ _ _)
    · constructor
      · intro vb _ _ plain
        exact ⟨agree_of_eq (addRule_literals _ _ _ _ _), .inr (copy vb plain)⟩
      · exact ⟨agree_of_eq rfl, trivial⟩

/-- The rule that `hit` was registered with. -/
def calmHit : VerbRuleNode :=
  newNode [.object {}, .literal 0, .object {}] 1 prepositions

theorem registered_calmHit : (empty.after calmCalls).Registered (str "hit") calmHit :=
  ⟨_, rfl, _, List.mem_cons_self, List.mem_cons_self⟩

theorem registry_law_calm : KeepsWords (empty.after calmCalls).literals calmHit :=
  (registry_law calmCalls calmCalls_clear calmCalls [] rfl).1 (str "hit") calmHit
    registered_calmHit

/-- The second registration brings the words in another order. -/
def reordered : List Call :=
  [.addRule (str "hit") (str "OBJ with OBJ") 1 prepositions,
    .addRule (str "put") (str "OBJ on OBJ") 2 prepositions.reverse]

/-- The rule of `hit` takes the word `on` then. -/
theorem reordered_not_kept :
    ¬ ∀ calls before rest, calls = before ++ rest →
      (∀ name node, (empty.after before).Registered name node →
        KeepsWords (empty.after before).literals node) ∧
      ∀ c later, rest = c :: later → StepLaw (empty.after before) c := by
  intro all
  let hit := newNode [.object {}, .literal 0, .object {}] 1 prepositions
  have registered : (empty.after reordered).Registered (str "hit") hit :=
    ⟨_, rfl, _, List.mem_cons_self, List.mem_cons_self⟩
  have words := ((all reordered reordered [] rfl).1 (str "hit") hit registered).prints
  have shown : ruleString hit.tokens (empty.after reordered).literals = str "OBJ on OBJ" := by
    decide
  rw [shown] at words
  exact absurd words (by decide)

end Registry

end Kjdmud.Efun.ParserPackage
