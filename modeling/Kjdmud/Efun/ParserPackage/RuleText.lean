import Kjdmud.Efun.ParserPackage.Registry

/-!
# Printing a rule and reading it again

`ruleString` shows of an object token what `living` and `plural` say.  The rule it prints
is read back as the tokens it was printed from without the two other modifiers.
-/

namespace Kjdmud.Efun.ParserPackage

/-! ## Words -/

/-- A word of a rule, as `nextWord` finds it. -/
structure IsWord (word : Str) : Prop where
  nonempty : word ≠ []
  noBlank : blank ∉ word

theorem isWord_of_nextWord {rule word rest : Str} (next : nextWord rule = some (word, rest)) :
    IsWord word := by
  unfold nextWord at next
  split at next
  · cases next
  · rename_i c behind front
    have first : c ≠ blank := by
      have stopped := List.head?_dropWhile_not (fun c => decide (c = blank)) rule
      rw [front] at stopped
      simpa using stopped
    simp only [Option.some.injEq, Prod.mk.injEq] at next
    obtain ⟨rfl, _⟩ := next
    refine ⟨?_, fun mem => ?_⟩
    · rw [List.takeWhile_cons_of_pos (by simpa using first)]
      exact List.cons_ne_nil _ _
    · have each := List.all_eq_true.mp List.all_takeWhile blank mem
      simp at each

/-- Blanks in front of a rule are skipped. -/
theorem nextWord_blank (rule : Str) : nextWord (blank :: rule) = nextWord rule := by
  simp [nextWord]

/-- The next word of a rule that begins with one. -/
theorem nextWord_of_isWord {word rest : Str} (isWord : IsWord word)
    (stops : rest = [] ∨ ∃ others, rest = blank :: others) :
    nextWord (word ++ rest) = some (word, rest) := by
  obtain ⟨nonempty, noBlank⟩ := isWord
  have whole : ∀ c ∈ word, decide (c ≠ blank) = true := by
    intro c mem
    simpa using fun same : c = blank => noBlank (same ▸ mem)
  cases word with
  | nil => exact absurd rfl nonempty
  | cons c word =>
      have first : c ≠ blank := fun same => noBlank (same ▸ List.mem_cons_self)
      have front : (c :: word ++ rest).dropWhile (· = blank) = c :: (word ++ rest) :=
        List.dropWhile_cons_of_neg (by simpa using first)
      have taken : (c :: word ++ rest).takeWhile (· ≠ blank) = c :: word := by
        rw [List.takeWhile_append_of_pos whole]
        rcases stops with rfl | ⟨others, rfl⟩ <;> simp
      have left : (c :: word ++ rest).dropWhile (· ≠ blank) = rest := by
        rw [List.dropWhile_append_of_pos whole]
        rcases stops with rfl | ⟨others, rfl⟩ <;> simp
      unfold nextWord
      rw [front]
      simp only [Option.some.injEq, Prod.mk.injEq]
      exact ⟨taken, left⟩

/-! ## The word that a token prints -/

/-- A token without the modifiers that are not printed. -/
def Token.printed : Token → Token
  | .object m => .object { m with visOnly := false, choose := false }
  | other => other

theorem Token.isObject_printed (token : Token) : token.printed.isObject = token.isObject := by
  cases token <;> rfl

theorem Token.isPlural_printed (token : Token) : token.printed.isPlural = token.isPlural := by
  cases token <;> rfl

theorem Token.fits_printed {hasObj : Nat} {hasPlural : Bool} {token : Token} :
    token.printed.Fits hasObj hasPlural ↔ token.Fits hasObj hasPlural := by
  unfold Token.Fits
  rw [token.isObject_printed, token.isPlural_printed]

theorem tokenText_printed (literals : List Str) (token : Token) :
    tokenText literals token.printed = tokenText literals token := by
  cases token <;> rfl

/-- What a token prints is a word with a blank behind, and the word is read as the token
without the modifiers that are not printed. -/
def PrintsBack (literals : List Str) (token : Token) : Prop :=
  ∃ word, tokenText literals token = word ++ str " " ∧ IsWord word ∧
    tokenizeOne literals word = .ok token.printed

/-- The names of the object tokens. -/
theorem printsBack_object (literals : List Str) (m : Modifiers) :
    PrintsBack literals (.object m) := by
  obtain ⟨living, visOnly, plural, choose⟩ := m
  cases living <;> cases plural
  · exact ⟨str "OBJ", rfl, ⟨by decide, by decide⟩, rfl⟩
  · exact ⟨str "OBS", rfl, ⟨by decide, by decide⟩, rfl⟩
  · exact ⟨str "LIV", rfl, ⟨by decide, by decide⟩, rfl⟩
  · exact ⟨str "LVS", rfl, ⟨by decide, by decide⟩, rfl⟩

/-- A word that is read as a literal, whatever it looks like, is printed as it was. -/
theorem printsBack_of_read {literals : List Str} {word : Str} {token : Token}
    (isWord : IsWord word) (read : tokenizeOne literals word = .ok token) :
    PrintsBack literals token := by
  cases token with
  | str => exact ⟨Kjdmud.str "STR", rfl, ⟨by decide, by decide⟩, rfl⟩
  | wrd => exact ⟨Kjdmud.str "WRD", rfl, ⟨by decide, by decide⟩, rfl⟩
  | object m => exact printsBack_object literals m
  | literal index =>
      obtain ⟨_, found⟩ := tokenizeOne_eq_literal.mp read
      obtain ⟨inside, same, _⟩ := List.findIdx?_eq_some_iff_getElem.mp found
      have shown : literals[index]? = some word := by
        rw [List.getElem?_eq_getElem inside, of_decide_eq_true same]
      refine ⟨word, ?_, isWord, read⟩
      rw [tokenText, shown]
      rfl

/-! ## The rule that tokens print -/

theorem flatMap_tokenText_eq_nil {literals : List Str} {tokens : List Token} :
    tokens.flatMap (tokenText literals) = [] ↔ tokens = [] := by
  constructor
  · intro nothing
    cases tokens with
    | nil => rfl
    | cons token tokens =>
        rw [List.flatMap_cons, List.append_eq_nil_iff] at nothing
        have some_ : tokenText literals token ≠ [] := by
          cases token with
          | object m =>
              obtain ⟨living, _, plural, _⟩ := m
              cases living <;> cases plural <;> exact List.cons_ne_nil _ _
          | literal index => exact List.append_ne_nil_of_right_ne_nil _ (List.cons_ne_nil _ _)
          | str => exact List.cons_ne_nil _ _
          | wrd => exact List.cons_ne_nil _ _
        exact absurd nothing.1 some_
  · rintro rfl
    rfl

/-- The first token of a rule is its first word. -/
theorem nextWord_ruleString {literals : List Str} {token : Token} {word : Str}
    (text : tokenText literals token = word ++ str " ") (isWord : IsWord word)
    (others : List Token) :
    ∃ rest, nextWord (ruleString (token :: others) literals) = some (word, rest) ∧
      nextWord rest = nextWord (ruleString others literals) := by
  unfold ruleString
  rw [List.flatMap_cons, text]
  cases others with
  | nil =>
      have alone : (word ++ str " " ++ [].flatMap (tokenText literals)).dropLast = word ++ [] := by
        simp [str]
      rw [alone]
      exact ⟨[], nextWord_of_isWord isWord (.inl rfl), rfl⟩
  | cons next others =>
      have more : (next :: others).flatMap (tokenText literals) ≠ [] :=
        fun nothing => List.cons_ne_nil _ _ (flatMap_tokenText_eq_nil.mp nothing)
      rw [List.dropLast_append_of_ne_nil more, List.append_assoc]
      exact ⟨_, nextWord_of_isWord isWord (.inr ⟨_, rfl⟩), nextWord_blank _⟩

/-- Only the next word of the rest matters to the loop. -/
theorem tokenizeLoop_congr {literals : List Str} {slots hasObj : Nat} {hasPlural : Bool}
    {rule rule' : Str} (same : nextWord rule = nextWord rule') :
    tokenizeLoop literals slots hasObj hasPlural rule =
      tokenizeLoop literals slots hasObj hasPlural rule' := by
  cases slots with
  | zero => rfl
  | succ slots => simp only [tokenizeLoop, same]

/-- The loop on a printed rule goes through the same words. -/
theorem tokenizeLoop_ruleString {literals : List Str} {slots hasObj : Nat} {hasPlural : Bool}
    {rule : Str} {tokens : List Token}
    (read : tokenizeLoop literals slots hasObj hasPlural rule = .ok tokens) :
    tokenizeLoop literals slots hasObj hasPlural (ruleString tokens literals) =
      .ok (tokens.map Token.printed) := by
  induction slots generalizing hasObj hasPlural rule tokens with
  | zero => cases read
  | succ slots ih =>
      cases next : nextWord rule with
      | none =>
          obtain rfl := (tokenizeLoop_of_none next).mp read
          rfl
      | some found =>
          obtain ⟨word, rest⟩ := found
          obtain ⟨token, first, fits, others, later, rfl⟩ := (tokenizeLoop_of_word next).mp read
          obtain ⟨shown, text, isWord, back⟩ :=
            printsBack_of_read (isWord_of_nextWord next) first
          obtain ⟨rest', printed, behind⟩ := nextWord_ruleString text isWord others
          refine (tokenizeLoop_of_word printed).mpr
            ⟨token.printed, back, Token.fits_printed.mpr fits, others.map Token.printed, ?_, rfl⟩
          rw [token.isObject_printed, token.isPlural_printed, tokenizeLoop_congr behind]
          exact ih later

/-- **Printing is undone by reading**, up to the modifiers that are not printed. -/
theorem tokenizeRule_ruleString {rule : Str} {literals : List Str} {tokens : List Token}
    (read : tokenizeRule rule literals = .ok tokens) :
    tokenizeRule (ruleString tokens literals) literals = .ok (tokens.map Token.printed) :=
  tokenizeLoop_ruleString read

theorem ruleString_printed (tokens : List Token) (literals : List Str) :
    ruleString (tokens.map Token.printed) literals = ruleString tokens literals := by
  unfold ruleString
  rw [List.flatMap_map]
  exact congrArg List.dropLast
    (List.flatMap_congr fun token _ => tokenText_printed literals token)

/-! ## The bounds of a rule -/

/-- The tokens of a rule are fewer than the slots, and at most two are objects and at most one
is plural, counted with what stood in front. -/
theorem tokenizeLoop_bounds {literals : List Str} {slots hasObj : Nat} {hasPlural : Bool}
    {rule : Str} {tokens : List Token} (few : hasObj ≤ 2)
    (read : tokenizeLoop literals slots hasObj hasPlural rule = .ok tokens) :
    tokens.length < slots ∧ hasObj + tokens.countP Token.isObject ≤ 2 ∧
      hasPlural.toNat + tokens.countP Token.isPlural ≤ 1 := by
  induction slots generalizing hasObj hasPlural rule tokens with
  | zero => cases read
  | succ slots ih =>
      cases next : nextWord rule with
      | none =>
          obtain rfl := (tokenizeLoop_of_none next).mp read
          simp only [List.length_nil, List.countP_nil, Nat.add_zero]
          exact ⟨Nat.succ_pos _, few, hasPlural.toNat_le⟩
      | some found =>
          obtain ⟨word, rest⟩ := found
          obtain ⟨token, _, fits, others, later, rfl⟩ := (tokenizeLoop_of_word next).mp read
          have room : hasObj + token.isObject.toNat ≤ 2 := by
            cases isObject : token.isObject with
            | false => exact few
            | true =>
                have third := (fits isObject).1
                simp only [Bool.toNat_true]
                omega
          have plural : hasPlural.toNat + token.isPlural.toNat =
              (hasPlural || token.isPlural).toNat := by
            cases isPlural : token.isPlural with
            | false => simp
            | true =>
                have isObject : token.isObject = true := by
                  cases token with
                  | object m => rfl
                  | str => cases isPlural
                  | wrd => cases isPlural
                  | literal index => cases isPlural
                cases hasPlural with
                | false => rfl
                | true => exact absurd ⟨isPlural, rfl⟩ (fits isObject).2
          obtain ⟨length, objects, plurals⟩ := ih room later
          have counted : ∀ b : Bool, (if b = true then 1 else 0) = b.toNat := by decide
          rw [List.countP_cons, List.countP_cons, List.length_cons, counted, counted]
          rw [← plural] at plurals
          refine ⟨by omega, by omega, by omega⟩

end Kjdmud.Efun.ParserPackage
