import Kjdmud.Efun.ParserPackage.RuleText
import Mathlib.Data.Int.Bitwise

/-!
# Tokens as numbers

A token of a rule is an `int` in the source: an object token has its modifiers as bits, and a
literal is the negated index of its word, less one.  `tokenizeRule` and `ruleString` on these
numbers are those on what the numbers say.
-/

namespace Kjdmud.Efun.ParserPackage

/-! ## `ParserToken` -/

namespace ParserToken

def str : Int := 2

def wrd : Int := 3

def livModifier : Int := 8

def visOnlyModifier : Int := 16

def pluralModifier : Int := 32

def chooseModifier : Int := 64

def objA : Int := 4

def livA : Int := objA.lor livModifier

def obj : Int := objA.lor visOnlyModifier

def liv : Int := livA.lor visOnlyModifier

def obs : Int := objA.lor pluralModifier

def lvs : Int := livA.lor pluralModifier

end ParserToken

/-! ## Reading and printing -/

namespace Codes

/-- `TokenDef`. -/
structure TokenDef where
  name : Str
  token : Int
  modLegal : Bool

/-- `kTokenDefs`. -/
def kTokenDefs : List TokenDef :=
  [⟨str "OBJ", ParserToken.objA, true⟩, ⟨str "STR", ParserToken.str, false⟩,
    ⟨str "WRD", ParserToken.wrd, false⟩, ⟨str "LIV", ParserToken.livA, true⟩,
    ⟨str "OBS", ParserToken.obs, true⟩, ⟨str "LVS", ParserToken.lvs, true⟩]

/-- One modifier letter behind the colon. -/
def applyModifier (i : Int) (letter : UInt8) : Except Str Int :=
  if letter = 0x6c then .ok (i.lor ParserToken.livModifier)
  else if letter = 0x76 then .ok (i.lor ParserToken.visOnlyModifier)
  else if letter = 0x70 then .ok (i.lor ParserToken.pluralModifier)
  else if letter = 0x63 then .ok (i.lor ParserToken.chooseModifier)
  else .error (str "parser rule: unknown modifier '" ++ letter :: str "'")

/-- A token name, with its modifiers; `none` for any other word. -/
def readKeyword (word : Str) : Except Str (Option Int) :=
  if word.length = 3 ∨ (word.length > 4 ∧ word[3]? = some 0x3a) then
    match kTokenDefs.find? fun td => td.name = word.take 3 with
    | none => .ok none
    | some td =>
        if word.length = 3 then .ok (some td.token)
        else if td.modLegal then some <$> (word.drop 4).foldlM applyModifier td.token
        else .error (str "parser rule: illegal to have modifiers to '" ++ td.name ++ str "'")
  else .ok none

/-- `tokenizeOne` on a word. -/
def tokenizeOne (literals : List Str) (word : Str) : Except Str Int := do
  match ← readKeyword word with
  | some i => .ok i
  | none =>
      match literals.findIdx? (· = word) with
      | some li => .ok (-(li + 1))
      | none =>
          let shown := if word.length > 50 then word.take 50 ++ str "..." else word
          .error (str "parser rule: unknown token '" ++ shown ++ str "'")

/-- The loop of `tokenizeRule` with so many slots left. -/
def tokenizeLoop (literals : List Str) : Nat → Nat → Bool → Str → Except Str (List Int)
  | 0, _, _, _ => .error (str "parser rule: only 10 tokens permitted per rule")
  | slots + 1, hasObj, hasPlural, rule =>
      match nextWord rule with
      | none => .ok []
      | some (word, rest) => do
          let tok ← tokenizeOne literals word
          if tok ≥ ParserToken.objA then
            if hasObj + 1 = 3 then
              .error (str "parser rule: only two object tokens allowed per rule")
            else if tok.land ParserToken.pluralModifier ≠ 0 then
              if hasPlural then
                .error (str "parser rule: only one plural token allowed per rule")
              else
                let result ← tokenizeLoop literals slots (hasObj + 1) true rest
                .ok (tok :: result)
            else
              let result ← tokenizeLoop literals slots (hasObj + 1) hasPlural rest
              .ok (tok :: result)
          else
            let result ← tokenizeLoop literals slots hasObj hasPlural rest
            .ok (tok :: result)

/-- `tokenizeRule`. -/
def tokenizeRule (rule : Str) (literals : List Str) : Except Str (List Int) :=
  tokenizeLoop literals 10 0 false rule

/-- One round of the loop of `ruleString`: the masked token selects, and a literal is looked
up with the token as it is. -/
def tokenText (literals : List Str) (rawTok : Int) : Str :=
  let tok := rawTok.land ParserToken.chooseModifier.lnot
  if tok = ParserToken.objA ∨ tok = ParserToken.obj then str "OBJ "
  else if tok = ParserToken.livA ∨ tok = ParserToken.liv then str "LIV "
  else if tok = ParserToken.obs ∨ tok = ParserToken.obs.lor ParserToken.visOnlyModifier then
    str "OBS "
  else if tok = ParserToken.lvs ∨ tok = ParserToken.lvs.lor ParserToken.visOnlyModifier then
    str "LVS "
  else if tok = ParserToken.str then str "STR "
  else if tok = ParserToken.wrd then str "WRD "
  else if rawTok ≤ 0 then
    -- 0 becomes the largest `size_t`, which is behind every list
    (if rawTok = 0 then [] else (literals[(-(rawTok + 1)).toNat]?).getD []) ++ str " "
  else []

/-- `ruleString`. -/
def ruleString (tokens : List Int) (literals : List Str) : Str :=
  (tokens.flatMap (tokenText literals)).dropLast

end Codes

/-! ## What a number says -/

/-- The bits of an object token. -/
def Modifiers.code (m : Modifiers) : Int :=
  ParserToken.objA + (if m.living then ParserToken.livModifier else 0) +
    (if m.visOnly then ParserToken.visOnlyModifier else 0) +
    (if m.plural then ParserToken.pluralModifier else 0) +
    (if m.choose then ParserToken.chooseModifier else 0)

/-- The number of a token. -/
def Token.code : Token → Int
  | .str => ParserToken.str
  | .wrd => ParserToken.wrd
  | .object m => m.code
  | .literal index => -(index + 1)

/-- What holds of the sixteen modifier sets holds of all. -/
theorem Modifiers.forall_iff {p : Modifiers → Prop} :
    (∀ m, p m) ↔ ∀ living visOnly plural choose, p ⟨living, visOnly, plural, choose⟩ :=
  ⟨fun all _ _ _ _ => all _, fun all m => all m.living m.visOnly m.plural m.choose⟩

instance {p : Modifiers → Prop} [DecidablePred p] : Decidable (∀ m, p m) :=
  decidable_of_iff _ Modifiers.forall_iff.symm

theorem lor_living : ∀ m : Modifiers, m.code.lor ParserToken.livModifier =
    { m with living := true }.code := by decide

theorem lor_visOnly : ∀ m : Modifiers, m.code.lor ParserToken.visOnlyModifier =
    { m with visOnly := true }.code := by decide

theorem lor_plural : ∀ m : Modifiers, m.code.lor ParserToken.pluralModifier =
    { m with plural := true }.code := by decide

theorem lor_choose : ∀ m : Modifiers, m.code.lor ParserToken.chooseModifier =
    { m with choose := true }.code := by decide

theorem objA_le_code : ∀ m : Modifiers, ParserToken.objA ≤ m.code := by decide

theorem land_plural : ∀ m : Modifiers,
    m.code.land ParserToken.pluralModifier ≠ 0 ↔ m.plural = true := by decide

/-- Exactly the object tokens reach `ObjA`. -/
theorem objA_le_code_iff (token : Token) :
    ParserToken.objA ≤ token.code ↔ token.isObject = true := by
  cases token with
  | str => decide
  | wrd => decide
  | object m => simp only [Token.isObject, iff_true]; exact objA_le_code m
  | literal index =>
      simp only [Token.code, Token.isObject, ParserToken.objA, Bool.false_eq_true, iff_false]
      omega

/-! ## Reading -/

theorem code_kTokenDefs : Codes.kTokenDefs =
    kTokenDefs.map fun td => ⟨td.name, td.token.code, td.modLegal⟩ := by
  rfl

theorem applyModifier_code (m : Modifiers) (letter : UInt8) :
    Codes.applyModifier m.code letter = (applyModifier (.object m) letter).map Token.code := by
  unfold Codes.applyModifier applyModifier
  dsimp only
  rw [lor_living, lor_visOnly, lor_plural, lor_choose]
  by_cases living : letter = 0x6c
  · rw [if_pos living, if_pos living]
    rfl
  · rw [if_neg living, if_neg living]
    by_cases visOnly : letter = 0x76
    · rw [if_pos visOnly, if_pos visOnly]
      rfl
    · rw [if_neg visOnly, if_neg visOnly]
      by_cases plural : letter = 0x70
      · rw [if_pos plural, if_pos plural]
        rfl
      · rw [if_neg plural, if_neg plural]
        by_cases choose : letter = 0x63
        · rw [if_pos choose, if_pos choose]
          rfl
        · rw [if_neg choose, if_neg choose]
          rfl

/-- A modifier makes an object token of an object token. -/
theorem applyModifier_object {m : Modifiers} {letter : UInt8} {token : Token}
    (applied : applyModifier (.object m) letter = .ok token) : ∃ m', token = .object m' := by
  unfold applyModifier at applied
  simp only at applied
  repeat' split at applied
  all_goals cases applied
  all_goals exact ⟨_, rfl⟩

theorem foldlM_applyModifier_code (letters : Str) (m : Modifiers) :
    letters.foldlM Codes.applyModifier m.code =
      (letters.foldlM applyModifier (.object m)).map Token.code := by
  induction letters generalizing m with
  | nil => rfl
  | cons letter letters inductionHypothesis =>
      rw [List.foldlM_cons, List.foldlM_cons, applyModifier_code]
      cases applied : applyModifier (.object m) letter with
      | error e => rfl
      | ok token =>
          obtain ⟨m', rfl⟩ := applyModifier_object applied
          exact inductionHypothesis m'

theorem readKeyword_code (word : Str) :
    Codes.readKeyword word = (readKeyword word).map (Option.map Token.code) := by
  have objects : ∀ td ∈ kTokenDefs, td.modLegal = true → td.token.isObject = true := by decide
  unfold Codes.readKeyword readKeyword
  by_cases long : word.length = 3 ∨ (word.length > 4 ∧ word[3]? = some 0x3a)
  · rw [if_pos long, if_pos long, code_kTokenDefs, List.find?_map]
    cases found : kTokenDefs.find? fun td => td.name = word.take 3 with
    | none =>
        have same : kTokenDefs.find? ((fun td : Codes.TokenDef => decide (td.name = word.take 3)) ∘
            fun td => ⟨td.name, td.token.code, td.modLegal⟩) = none := found
        rw [same]
        rfl
    | some td =>
        have same : kTokenDefs.find? ((fun td : Codes.TokenDef => decide (td.name = word.take 3)) ∘
            fun td => ⟨td.name, td.token.code, td.modLegal⟩) = some td := found
        rw [same]
        simp only [Option.map_some]
        by_cases three : word.length = 3
        · rw [if_pos three, if_pos three]
          rfl
        · rw [if_neg three, if_neg three]
          cases legal : td.modLegal with
          | false => rfl
          | true =>
              have isObject := objects td (List.mem_of_find?_eq_some found) legal
              cases token : td.token with
              | object m =>
                  simp only [if_true, Token.code]
                  rw [foldlM_applyModifier_code]
                  cases (word.drop 4).foldlM applyModifier (.object m) <;> rfl
              | str => rw [token] at isObject; cases isObject
              | wrd => rw [token] at isObject; cases isObject
              | literal index => rw [token] at isObject; cases isObject
  · rw [if_neg long, if_neg long]
    rfl

theorem tokenizeOne_code (literals : List Str) (word : Str) :
    Codes.tokenizeOne literals word = (tokenizeOne literals word).map Token.code := by
  unfold Codes.tokenizeOne tokenizeOne
  rw [readKeyword_code]
  cases readKeyword word with
  | error e => rfl
  | ok result =>
      cases result with
      | some token => rfl
      | none =>
          simp only [Except.map, Option.map_none, bind, Except.bind]
          cases literals.findIdx? (· = word) <;> rfl

/-- The loop of `tokenizeRule` on numbers. -/
theorem tokenizeLoop_code (literals : List Str) (slots hasObj : Nat) (hasPlural : Bool)
    (rule : Str) : Codes.tokenizeLoop literals slots hasObj hasPlural rule =
      (tokenizeLoop literals slots hasObj hasPlural rule).map (List.map Token.code) := by
  induction slots generalizing hasObj hasPlural rule with
  | zero => rfl
  | succ slots inductionHypothesis =>
      have behind : ∀ (hasObj : Nat) (hasPlural : Bool) (rest : Str) (token : Token),
          (Codes.tokenizeLoop literals slots hasObj hasPlural rest >>= fun result =>
              .ok (token.code :: result)) =
            (tokenizeLoop literals slots hasObj hasPlural rest >>= fun tokens =>
              .ok (token :: tokens)).map (List.map Token.code) := by
        intro hasObj hasPlural rest token
        rw [inductionHypothesis]
        cases tokenizeLoop literals slots hasObj hasPlural rest <;> rfl
      simp only [Codes.tokenizeLoop, tokenizeLoop]
      cases nextWord rule with
      | none => rfl
      | some found =>
          obtain ⟨word, rest⟩ := found
          simp only [tokenizeOne_code]
          cases tokenizeOne literals word with
          | error e => rfl
          | ok token =>
              have isObject := objA_le_code_iff token
              simp only [Except.map, bind, Except.bind] at behind ⊢
              cases token with
              | object m =>
                  rw [if_pos (isObject.mpr rfl)]
                  dsimp only
                  by_cases third : hasObj + 1 = 3
                  · rw [if_pos third, if_pos third]
                  · rw [if_neg third, if_neg third]
                    have plural : (Token.object m).code.land ParserToken.pluralModifier ≠ 0 ↔
                        m.plural = true := land_plural m
                    cases isPlural : m.plural with
                    | true =>
                        rw [if_pos (plural.mpr isPlural)]
                        cases hasPlural with
                        | true => rfl
                        | false => exact behind (hasObj + 1) true rest (.object m)
                    | false =>
                        have single : ¬ (Token.object m).code.land ParserToken.pluralModifier ≠ 0 :=
                          fun bit => by rw [plural.mp bit] at isPlural; cases isPlural
                        rw [if_neg single, if_neg (fun both => by cases both.1), Bool.or_false]
                        exact behind (hasObj + 1) hasPlural rest (.object m)
              | str =>
                  rw [if_neg (fun reaches => by cases isObject.mp reaches)]
                  exact behind hasObj hasPlural rest .str
              | wrd =>
                  rw [if_neg (fun reaches => by cases isObject.mp reaches)]
                  exact behind hasObj hasPlural rest .wrd
              | literal index =>
                  rw [if_neg (fun reaches => by cases isObject.mp reaches)]
                  exact behind hasObj hasPlural rest (.literal index)

theorem tokenizeRule_code (rule : Str) (literals : List Str) :
    Codes.tokenizeRule rule literals =
      (tokenizeRule rule literals).map (List.map Token.code) :=
  tokenizeLoop_code literals 10 0 false rule

/-! ## Printing -/

/-- The mask leaves a literal below 0, so that the printer comes to its last case. -/
theorem land_literal (index : Nat) :
    (Token.literal index).code.land ParserToken.chooseModifier.lnot < 0 := by
  have negative : (Token.literal index).code = Int.negSucc index := by
    simp only [Token.code]
    omega
  rw [negative]
  exact Int.negSucc_lt_zero _

/-- A name does not depend on the literal words. -/
theorem tokenText_positive (literals : List Str) {rawTok : Int} (positive : 0 < rawTok) :
    Codes.tokenText literals rawTok = Codes.tokenText [] rawTok := by
  have notLiteral : ¬ rawTok ≤ 0 := Int.not_le.mpr positive
  unfold Codes.tokenText
  simp only [if_neg notLiteral]

theorem tokenText_code (literals : List Str) (token : Token) :
    Codes.tokenText literals token.code = tokenText literals token := by
  have object : ∀ m : Modifiers, Codes.tokenText [] m.code = tokenText [] (.object m) := by
    decide +kernel
  cases token with
  | str =>
      have shown : Codes.tokenText [] ParserToken.str = Kjdmud.str "STR " := by decide +kernel
      exact (tokenText_positive literals (by decide)).trans shown
  | wrd =>
      have shown : Codes.tokenText [] ParserToken.wrd = Kjdmud.str "WRD " := by decide +kernel
      exact (tokenText_positive literals (by decide)).trans shown
  | object m =>
      have positive : 0 < m.code := Int.lt_of_lt_of_le (by decide) (objA_le_code m)
      exact (tokenText_positive literals positive).trans (object m)
  | literal index =>
      have below := land_literal index
      have position : (-((Token.literal index).code + 1)).toNat = index := by
        simp only [Token.code]
        omega
      have low : (Token.literal index).code ≤ 0 ∧ (Token.literal index).code ≠ 0 := by
        simp only [Token.code]
        omega
      have masked : ∀ n : Int, 0 ≤ n →
          (Token.literal index).code.land ParserToken.chooseModifier.lnot ≠ n := by
        intro n positive same
        omega
      unfold Codes.tokenText
      simp only [masked _ (show 0 ≤ ParserToken.objA by decide),
        masked _ (show 0 ≤ ParserToken.obj by decide),
        masked _ (show 0 ≤ ParserToken.livA by decide),
        masked _ (show 0 ≤ ParserToken.liv by decide),
        masked _ (show 0 ≤ ParserToken.obs by decide),
        masked _ (show 0 ≤ ParserToken.obs.lor ParserToken.visOnlyModifier by decide),
        masked _ (show 0 ≤ ParserToken.lvs by decide),
        masked _ (show 0 ≤ ParserToken.lvs.lor ParserToken.visOnlyModifier by decide),
        masked _ (show 0 ≤ ParserToken.str by decide),
        masked _ (show 0 ≤ ParserToken.wrd by decide), or_self, if_false, low.1, low.2, if_true,
        position]
      rfl

theorem ruleString_code (tokens : List Token) (literals : List Str) :
    Codes.ruleString (tokens.map Token.code) literals = ruleString tokens literals := by
  unfold Codes.ruleString ruleString
  rw [List.flatMap_map]
  exact congrArg List.dropLast (List.flatMap_congr fun token _ => tokenText_code literals token)

/-- An object token without the `v` and `c` bits. -/
def Codes.printed (tok : Int) : Int :=
  if tok ≥ ParserToken.objA then
    tok.land (ParserToken.visOnlyModifier.lor ParserToken.chooseModifier).lnot
  else tok

theorem printed_code (token : Token) : Codes.printed token.code = token.printed.code := by
  have masked : ∀ m : Modifiers,
      m.code.land (ParserToken.visOnlyModifier.lor ParserToken.chooseModifier).lnot =
        { m with visOnly := false, choose := false }.code := by decide +kernel
  have isObject := objA_le_code_iff token
  cases token with
  | object m => exact (if_pos (isObject.mpr rfl)).trans (masked m)
  | str => exact if_neg fun reaches => by cases isObject.mp reaches
  | wrd => exact if_neg fun reaches => by cases isObject.mp reaches
  | literal index => exact if_neg fun reaches => by cases isObject.mp reaches

theorem map_printed_code (tokens : List Token) :
    (tokens.map Token.code).map Codes.printed = (tokens.map Token.printed).map Token.code := by
  simp only [List.map_map]
  exact List.map_congr_left fun token _ => printed_code token

namespace Codes

/-- The tokens of a rule, read with a list of literal words. -/
structure Bounded (literals : List Str) (tokens : List Int) : Prop where
  slots : tokens.length ≤ 9
  objects : tokens.countP (fun tok => tok ≥ ParserToken.objA) ≤ 2
  plurals : tokens.countP
    (fun tok => tok ≥ ParserToken.objA ∧ tok.land ParserToken.pluralModifier ≠ 0) ≤ 1
  words : ∀ tok ∈ tokens, tok ≤ 0 → ∃ index : Nat, index < literals.length ∧ tok = -(index + 1)

theorem bounded_of_read {rule : Str} {literals : List Str} {tokens : List Token}
    (read : ParserPackage.tokenizeRule rule literals = .ok tokens) :
    Bounded literals (tokens.map Token.code) := by
  obtain ⟨slots, objects, plurals⟩ := tokenizeLoop_bounds (Nat.zero_le 2) read
  rw [Nat.zero_add] at objects
  rw [Bool.toNat_false, Nat.zero_add] at plurals
  refine ⟨?_, ?_, ?_, ?_⟩
  · rw [List.length_map]
    exact Nat.le_of_lt_succ slots
  · rw [List.countP_map]
    refine le_of_eq_of_le (List.countP_congr fun token _ => ?_) objects
    simpa using objA_le_code_iff token
  · rw [List.countP_map]
    refine le_of_eq_of_le (List.countP_congr fun token _ => ?_) plurals
    simp only [Function.comp_apply, decide_eq_true_eq, ge_iff_le, objA_le_code_iff]
    cases token with
    | object m => exact (and_iff_right rfl).trans (land_plural m)
    | str => simp [Token.isObject, Token.isPlural]
    | wrd => simp [Token.isObject, Token.isPlural]
    | literal index => simp [Token.isObject, Token.isPlural]
  · intro tok mem low
    obtain ⟨token, listed, rfl⟩ := List.mem_map.mp mem
    cases token with
    | literal index =>
        exact ⟨index, tokenizeLoop_index read (List.mem_filterMap.mpr ⟨_, listed, rfl⟩), rfl⟩
    | object m => exact absurd (Int.le_trans (objA_le_code m) low) (by decide)
    | str => exact absurd low (by decide)
    | wrd => exact absurd low (by decide)

/-- **Rule printing inverts rule reading.**  The printed rule is read as the tokens it was
printed from without the `v` and `c` bits, and prints the same; rules that print the same have
the same tokens up to these bits; and the tokens keep their bounds. -/
theorem ruleString_inverts {rule : Str} {literals : List Str} {tokens : List Int}
    (read : tokenizeRule rule literals = .ok tokens) :
    tokenizeRule (ruleString tokens literals) literals = .ok (tokens.map printed) ∧
      ruleString (tokens.map printed) literals = ruleString tokens literals ∧
      (∀ rule' tokens', tokenizeRule rule' literals = .ok tokens' →
        ruleString tokens' literals = ruleString tokens literals →
        tokens'.map printed = tokens.map printed) ∧
      Bounded literals tokens := by
  have decoded : ∀ {rule tokens}, tokenizeRule rule literals = .ok tokens →
      ∃ ts, ParserPackage.tokenizeRule rule literals = .ok ts ∧ tokens = ts.map Token.code := by
    intro rule tokens read
    rw [tokenizeRule_code] at read
    cases isRead : ParserPackage.tokenizeRule rule literals with
    | error e =>
        rw [isRead] at read
        cases read
    | ok ts =>
        rw [isRead] at read
        cases read
        exact ⟨ts, rfl, rfl⟩
  have back : ∀ {rule tokens}, tokenizeRule rule literals = .ok tokens →
      tokenizeRule (ruleString tokens literals) literals = .ok (tokens.map printed) := by
    intro rule tokens read
    obtain ⟨ts, isRead, rfl⟩ := decoded read
    rw [ruleString_code, tokenizeRule_code, ParserPackage.tokenizeRule_ruleString isRead,
      map_printed_code]
    rfl
  obtain ⟨ts, isRead, rfl⟩ := decoded read
  refine ⟨back read, ?_, ?_, bounded_of_read isRead⟩
  · rw [map_printed_code, ruleString_code, ruleString_code, ruleString_printed]
  · intro rule' tokens' read' same
    have reread := back read'
    rw [same, back read] at reread
    exact (Except.ok.inj reread).symm

/-- A rule with all modifiers and a literal word that looks like a name with modifiers. -/
theorem ruleString_inverts_sample :
    tokenizeRule (str "OBJ:vcl foo:p WRD") [str "on", str "foo:p"] = .ok [92, -2, 3] ∧
      ruleString [92, -2, 3] [str "on", str "foo:p"] = str "LIV foo:p WRD" ∧
      tokenizeRule (str "LIV foo:p WRD") [str "on", str "foo:p"] = .ok [12, -2, 3] := by
  have read : tokenizeRule (str "OBJ:vcl foo:p WRD") [str "on", str "foo:p"] =
      .ok [92, -2, 3] := by decide +kernel
  have shown : ruleString [92, -2, 3] [str "on", str "foo:p"] = str "LIV foo:p WRD" := by
    decide +kernel
  have masked : [92, -2, 3].map printed = [12, -2, 3] := by decide +kernel
  have back := (ruleString_inverts read).1
  rw [shown, masked] at back
  exact ⟨read, shown, back⟩

end Codes

end Kjdmud.Efun.ParserPackage
