import Kjdmud.Object.Masking

/-!
# Unmasking

What `unmaskAfterSystemCpp` makes of a masked source.  Two things keep it from giving back the
source: a masked `#'` behind most of its own marker, and a mode of `maskDotDot` that is not the
context of the source, because the `'` it should have seen was masked or the one it saw belongs
to a `#'`, to a quoted symbol or to a text block.
-/

namespace Kjdmud.Object.Masking

open Kjdmud.Compiler (LpcDialect)
open Kjdmud.Lib.Markers

/-! ## The maskers on the source -/

section Mask

variable {before : Option UInt8} {mode mode' : Mode} {c d : UInt8} {rest x : Str}
  {copied : Nat}

theorem maskHashQuoteFrom_masks
    (masks : c = 35 ∧ (d :: rest).head? = some 39 ∧ before ≠ some 39) :
    maskHashQuoteFrom before (c :: d :: rest) =
      hashQuoteMarker ++ maskHashQuoteFrom (some d) rest := by
  rw [maskHashQuoteFrom.eq_def]
  exact if_pos masks

theorem maskHashQuoteFrom_copies
    (other : ¬ (c = 35 ∧ rest.head? = some 39 ∧ before ≠ some 39)) :
    maskHashQuoteFrom before (c :: rest) = c :: maskHashQuoteFrom (some c) rest := by
  rw [maskHashQuoteFrom.eq_def]
  exact if_neg other

theorem maskDotDotFrom_round (copies : round mode c rest = some (copied, mode')) :
    maskDotDotFrom mode 0 (c :: rest) = c :: maskDotDotFrom mode' copied rest := by
  rw [maskDotDotFrom.eq_def]
  simp only [copies]

theorem maskDotDotFrom_masks (masks : round mode c (d :: rest) = none) :
    maskDotDotFrom mode 0 (c :: d :: rest) = maskedRange ++ maskDotDotFrom mode 0 rest := by
  rw [maskDotDotFrom.eq_def]
  simp only [masks]

/-- A round copies two characters behind its first one at most. -/
theorem round_copies (copies : round mode c rest = some (copied, mode')) : copied ≤ 2 := by
  cases mode <;> rw [round] at copies
  all_goals
    repeat' split at copies
  all_goals
    cases copies
  all_goals
    decide

/-- The characters that say nothing to `maskDotDot`. -/
def isPlain (c : UInt8) : Bool :=
  c ∉ [10, 34, 39, 42, 46, 47, 92]

theorem round_plain (plain : isPlain c = true) : round mode c rest = some (0, mode) := by
  have apart : c ≠ 10 ∧ c ≠ 34 ∧ c ≠ 39 ∧ c ≠ 42 ∧ c ≠ 46 ∧ c ≠ 47 ∧ c ≠ 92 := by
    simpa [isPlain] using plain
  cases mode <;> simp [round, apart]

theorem maskDotDotFrom_plain {w : Str} (plain : ∀ c ∈ w, isPlain c = true)
    (short : copied ≤ w.length) :
    maskDotDotFrom mode copied (w ++ x) = w ++ maskDotDotFrom mode 0 x := by
  induction w generalizing copied with
  | nil =>
      rw [Nat.le_zero.mp short]
      rfl
  | cons c w ih =>
      have behind := fun d inside => plain d (List.mem_cons_of_mem c inside)
      cases copied with
      | zero =>
          rw [List.cons_append, maskDotDotFrom_round (round_plain (plain c List.mem_cons_self)),
            ih behind (Nat.zero_le _)]
          rfl
      | succ copied =>
          exact congrArg (c :: ·) (ih behind (Nat.le_of_succ_le_succ short))

theorem plain_hashQuoteMarker : ∀ c ∈ hashQuoteMarker, isPlain c = true := by
  decide +kernel

/-- The first masker keeps the first character, or there is a marker in its place. -/
theorem maskHashQuoteFrom_cases (before : Option UInt8) (s : Str) :
    maskHashQuoteFrom before s = s ∧ s = [] ∨
      (∃ c rest, s = c :: rest ∧
        maskHashQuoteFrom before s = c :: maskHashQuoteFrom (some c) rest) ∨
      ∃ rest text, s = 35 :: rest ∧ maskHashQuoteFrom before s = 95 :: text := by
  cases s with
  | nil => exact .inl ⟨rfl, rfl⟩
  | cons c rest =>
      by_cases masks : c = 35 ∧ rest.head? = some 39 ∧ before ≠ some 39
      · cases rest with
        | nil => cases masks.2.1
        | cons quote rest =>
            refine .inr (.inr ⟨quote :: rest,
              hashQuoteMarker.tail ++ maskHashQuoteFrom (some quote) rest, by rw [masks.1], ?_⟩)
            exact maskHashQuoteFrom_masks masks
      · exact .inr (.inl ⟨c, rest, rfl, maskHashQuoteFrom_copies masks⟩)

/-- A round of the second masker sees in the masked text what it would see in the source. -/
theorem round_maskHashQuoteFrom (before : Option UInt8) (s : Str) :
    round mode c (maskHashQuoteFrom before s) = round mode c s := by
  rcases maskHashQuoteFrom_cases before s with ⟨masked, _⟩ | ⟨d, rest, rfl, masked⟩ |
    ⟨rest, text, rfl, masked⟩
  · rw [masked]
  · rw [masked]
    rcases maskHashQuoteFrom_cases (some d) rest with ⟨masked, _⟩ | ⟨e, behind, rfl, masked⟩ |
      ⟨behind, text, rfl, masked⟩
    · rw [masked]
    · rw [masked]
      cases mode <;> simp [round]
    · rw [masked]
      cases mode <;> simp [round]
  · rw [masked]
    cases mode <;> simp [round]

end Mask

/-- No range operator stands where the lexer reads none. -/
theorem lexeme_eq_none {dialect : LpcDialect} {context : Context} {c : UInt8} {rest : Str}
    (range : lexeme dialect context c rest = none) :
    c = 46 ∧ ∃ behind, rest = 46 :: behind := by
  cases context with
  | code =>
      rw [lexeme] at range
      iterate 3
        split at range
        · cases range
      split at range
      · split at range <;> cases range
      split at range
      · cases range
      split at range
      · split at range <;> cases range
      split at range
      · next dots =>
          cases rest with
          | nil => cases dots.2
          | cons dot behind =>
              have same : dot = 46 := by simpa using dots.2
              exact ⟨dots.1, behind, by rw [same]⟩
      · cases range
  | lineComment => cases range
  | string | constant | blockComment | textBlock =>
      rw [lexeme] at range
      split at range <;> cases range

/-- The pieces are those of the source. -/
theorem source_pieces (dialect : LpcDialect) (s : Str) :
    (pieces dialect s).flatMap Piece.source = s := by
  have all : ∀ context taken, (piecesFrom dialect context taken s).flatMap Piece.source = s := by
    intro context taken
    induction context, taken, s using piecesFrom.induct dialect with
    | case1 => rfl
    | case2 context taken c rest ih =>
        rw [piecesFrom, List.flatMap_cons, ih]
        rfl
    | case3 context c rest taken context' takes ih =>
        rw [piecesFrom.eq_def]
        simp only [takes, List.flatMap_cons, ih]
        rfl
    | case4 context c range =>
        obtain ⟨_, behind, same⟩ := lexeme_eq_none range
        cases same
    | case5 context c dot rest range ih =>
        obtain ⟨point, behind, same⟩ := lexeme_eq_none range
        cases same
        subst point
        rw [piecesFrom.eq_def]
        simp only [range, List.flatMap_cons, ih]
        rfl
  exact all .code 0

/-! ## The items of a source -/

/-- The context that a mode stands for. -/
def Mode.context : Mode → Context
  | .code => .code
  | .dQuote => .string
  | .sQuote => .constant
  | .lineComment => .lineComment
  | .blockComment => .blockComment

section Items

variable {before : Option UInt8} {context context' : Context} {c d : UInt8} {rest : Str}
  {taken : Nat}

theorem startsClosure_iff : startsClosure before c rest = true ↔
    c = 35 ∧ rest.head? = some 39 ∧ before ≠ some 39 := by
  simp [startsClosure, and_assoc]

theorem bareFrom_closure (closure : startsClosure before c (d :: rest) = true) :
    bareFrom before context taken (c :: d :: rest) =
      .hashQuote :: bareFrom (some d) context 0 rest := by
  rw [bareFrom.eq_def]
  exact if_pos closure

theorem bareFrom_taken (other : ¬ startsClosure before c rest = true) :
    bareFrom before context (taken + 1) (c :: rest) =
      .char c :: bareFrom (some c) context taken rest := by
  rw [bareFrom.eq_def]
  exact if_neg other

theorem bareFrom_lexeme (other : ¬ startsClosure before c rest = true)
    (takes : bareLexeme context c rest = some (taken, context')) :
    bareFrom before context 0 (c :: rest) = .char c :: bareFrom (some c) context' taken rest := by
  rw [bareFrom.eq_def]
  refine (if_neg other).trans ?_
  simp only [takes]

theorem bareFrom_range (other : ¬ startsClosure before c (d :: rest) = true)
    (range : bareLexeme context c (d :: rest) = none) :
    bareFrom before context 0 (c :: d :: rest) = .range :: bareFrom (some d) context 0 rest := by
  rw [bareFrom.eq_def]
  refine (if_neg other).trans ?_
  simp only [range]

/-- A round of the second masker takes what the bare quotes tell. -/
theorem bareLexeme_context (mode : Mode) (c : UInt8) (rest : Str) :
    bareLexeme mode.context c rest =
      (round mode c rest).map fun taken => (taken.1, taken.2.context) := by
  cases mode with
  | lineComment =>
      simp only [bareLexeme, Mode.context, lexeme, round, reduceCtorEq, false_and, if_false]
      split <;> rfl
  | blockComment | dQuote | sQuote =>
      simp only [bareLexeme, Mode.context, lexeme, round, reduceCtorEq, false_and, if_false]
      split
      · rfl
      · first | rfl | (simp only [Option.map_some]; split <;> rfl)
  | code =>
      by_cases quote : c = 39
      · subst quote
        rfl
      by_cases at' : c = 64
      · subst at'
        rfl
      have plain : bareLexeme .code c rest = lexeme .fluffOS .code c rest := by
        simp [bareLexeme, quote, at']
      rw [Mode.context, plain, lexeme, round]
      simp only [quote, at', reduceCtorEq, false_and, and_false, if_false]
      split
      · rfl
      split
      · rfl
      split
      · rfl
      split
      · split <;> rfl
      · rfl

theorem bareLexeme_eq_none (range : bareLexeme context c rest = none) :
    c = 46 ∧ ∃ behind, rest = 46 :: behind := by
  rw [bareLexeme] at range
  iterate 2
    split at range
    · cases range
  exact lexeme_eq_none range

/-- The maskers read the items of the source. -/
theorem maskDotDotFrom_maskHashQuoteFrom (before : Option UInt8) (mode : Mode) (copied : Nat)
    (s : Str) (short : copied ≤ 2) :
    maskDotDotFrom mode copied (maskHashQuoteFrom before s) =
      (bareFrom before mode.context copied s).flatMap Item.masked := by
  generalize same : mode.context = context
  induction before, context, copied, s using bareFrom.induct generalizing mode with
  | case1 before context taken => cases taken <;> rfl
  | case2 before context taken c closure => cases (startsClosure_iff.mp closure).2.1
  | case3 before context taken c quote rest closure ih =>
      have masks := startsClosure_iff.mp closure
      rw [bareFrom_closure closure, maskHashQuoteFrom_masks masks,
        maskDotDotFrom_plain plain_hashQuoteMarker (short.trans (by decide)),
        ih mode (Nat.zero_le 2) same]
      rfl
  | case4 before context c rest other taken ih =>
      rw [bareFrom_taken other, maskHashQuoteFrom_copies (other ∘ startsClosure_iff.mpr),
        maskDotDotFrom, ih mode (Nat.le_of_succ_le short) same]
      rfl
  | case5 before context c rest other taken context' takes ih =>
      have reads := takes
      rw [← same, bareLexeme_context, Option.map_eq_some_iff] at reads
      obtain ⟨⟨copied, mode'⟩, copies, both⟩ := reads
      cases both
      rw [bareFrom_lexeme other takes, maskHashQuoteFrom_copies (other ∘ startsClosure_iff.mpr),
        maskDotDotFrom_round ((round_maskHashQuoteFrom _ _).trans copies),
        ih mode' (round_copies copies) rfl]
      rfl
  | case6 before context c other range =>
      obtain ⟨_, behind, none⟩ := bareLexeme_eq_none range
      cases none
  | case7 before context c dot rest other range ih =>
      have masks := range
      rw [← same, bareLexeme_context, Option.map_eq_none_iff] at masks
      obtain ⟨_, behind, dots⟩ := bareLexeme_eq_none range
      cases dots
      have second : ¬ ((46 : UInt8) = 35 ∧ rest.head? = some 39 ∧ some c ≠ some 39) := by
        rintro ⟨hash, _⟩
        cases hash
      have seen : round mode c (maskHashQuoteFrom (some c) (46 :: rest)) =
          round mode c (46 :: rest) := round_maskHashQuoteFrom _ _
      rw [maskHashQuoteFrom_copies second] at seen
      rw [bareFrom_range other range, maskHashQuoteFrom_copies (other ∘ startsClosure_iff.mpr),
        maskHashQuoteFrom_copies second, maskDotDotFrom_masks (seen.trans masks),
        ih mode (Nat.zero_le 2) same]
      rfl

theorem maskForSystemCpp_eq (s : Str) :
    maskForSystemCpp s = (bareFrom none .code 0 s).flatMap Item.masked :=
  maskDotDotFrom_maskHashQuoteFrom none .code 0 s (Nat.zero_le 2)

/-- The items are those of the source. -/
theorem source_bareFrom (before : Option UInt8) (context : Context) (taken : Nat) (s : Str) :
    (bareFrom before context taken s).flatMap Item.source = s := by
  induction before, context, taken, s using bareFrom.induct with
  | case1 => rfl
  | case2 before context taken c closure => cases (startsClosure_iff.mp closure).2.1
  | case3 before context taken c quote rest closure ih =>
      obtain ⟨hash, head, _⟩ := startsClosure_iff.mp closure
      have same : quote = 39 := by simpa using head
      rw [bareFrom_closure closure, List.flatMap_cons, ih, hash, same]
      rfl
  | case4 before context c rest other taken ih =>
      rw [bareFrom_taken other, List.flatMap_cons, ih]
      rfl
  | case5 before context c rest other taken context' takes ih =>
      rw [bareFrom_lexeme other takes, List.flatMap_cons, ih]
      rfl
  | case6 before context c other range =>
      obtain ⟨_, behind, none⟩ := bareLexeme_eq_none range
      cases none
  | case7 before context c dot rest other range ih =>
      obtain ⟨point, behind, dots⟩ := bareLexeme_eq_none range
      cases dots
      rw [bareFrom_range other range, List.flatMap_cons, ih, point]
      rfl

end Items

/-! ## The markers in the masked text -/

/-- The masked text of some items. -/
def text (items : List Item) : Str :=
  items.flatMap Item.masked

/-- No marker starts at a character of the source. -/
def Apart : List Item → Prop
  | [] => True
  | .char c :: items => ¬ hashQuoteMarker <+: c :: text items ∧ Apart items
  | _ :: items => Apart items

/-- Exactly the `#'` that follow no `'` are masked. -/
def Masks : Option UInt8 → List Item → Prop
  | _, [] => True
  | before, .char c :: items =>
      ¬ (c = 35 ∧ items.head? = some (.char 39) ∧ before ≠ some 39) ∧ Masks (some c) items
  | before, .hashQuote :: items => before ≠ some 39 ∧ Masks (some 39) items
  | _, .range :: items => Masks (some 46) items

section Markers

variable {before : Option UInt8} {items : List Item} {p w a b : Str} {c : UInt8}

theorem head_source (head : items.head? = some (.char c)) :
    (items.flatMap Item.source).head? = some c := by
  cases items with
  | nil => cases head
  | cons item items =>
      cases head
      rfl

theorem masks_bareFrom (before : Option UInt8) (context : Context) (taken : Nat) (s : Str) :
    Masks before (bareFrom before context taken s) := by
  have follows : ∀ {before : Option UInt8} {context : Context} {taken : Nat} {c : UInt8}
      {rest : Str}, ¬ startsClosure before c rest = true →
      ¬ (c = 35 ∧ (bareFrom (some c) context taken rest).head? = some (.char 39) ∧
        before ≠ some 39) := by
    rintro before context taken c rest other ⟨hash, head, first⟩
    have quote := head_source head
    rw [source_bareFrom] at quote
    exact other (startsClosure_iff.mpr ⟨hash, quote, first⟩)
  induction before, context, taken, s using bareFrom.induct with
  | case1 => trivial
  | case2 before context taken c closure => cases (startsClosure_iff.mp closure).2.1
  | case3 before context taken c quote rest closure ih =>
      obtain ⟨_, head, first⟩ := startsClosure_iff.mp closure
      have same : quote = 39 := by simpa using head
      rw [bareFrom_closure closure]
      exact ⟨first, same ▸ ih⟩
  | case4 before context c rest other taken ih =>
      rw [bareFrom_taken other]
      exact ⟨follows other, ih⟩
  | case5 before context c rest other taken context' takes ih =>
      rw [bareFrom_lexeme other takes]
      exact ⟨follows other, ih⟩
  | case6 before context c other range =>
      obtain ⟨_, behind, none⟩ := bareLexeme_eq_none range
      cases none
  | case7 before context c dot rest other range ih =>
      obtain ⟨_, behind, dots⟩ := bareLexeme_eq_none range
      cases dots
      rw [bareFrom_range other range]
      exact ih

/-- What starts like the marker is source up to a place where a marker starts. -/
theorem prefix_text (noSpace : 32 ∉ p) (short : p.length ≤ hashQuoteMarker.length)
    (starts : p <+: text items) :
    p <+: items.flatMap Item.source ∨
      ∃ j, j < p.length ∧ p.take j ++ [35, 39] <+: items.flatMap Item.source ∧
        p.drop j <+: hashQuoteMarker := by
  induction items generalizing p with
  | nil =>
      rw [List.prefix_nil.mp starts]
      exact .inl (List.nil_prefix)
  | cons item items ih =>
      cases p with
      | nil => exact .inl (List.nil_prefix)
      | cons x p =>
          cases item with
          | char c =>
              obtain ⟨rfl, behind⟩ := List.cons_prefix_cons.mp starts
              have rest := ih (fun inside => noSpace (List.mem_cons_of_mem x inside))
                (Nat.le_of_succ_le short) behind
              rcases rest with source | ⟨j, below, source, border⟩
              · exact .inl (List.cons_prefix_cons.mpr ⟨rfl, source⟩)
              · refine .inr ⟨j + 1, Nat.succ_lt_succ below, ?_, border⟩
                exact List.cons_prefix_cons.mpr ⟨rfl, source⟩
          | hashQuote =>
              refine .inr ⟨0, Nat.succ_pos _, ?_, ?_⟩
              · exact List.prefix_append [35, 39] _
              · exact List.prefix_of_prefix_length_le starts
                  (List.prefix_append hashQuoteMarker _) short
          | range =>
              obtain ⟨rfl, _⟩ := List.cons_prefix_cons.mp starts
              exact absurd List.mem_cons_self noSpace

/-- The marker overlaps itself by one or two characters. -/
theorem borders : ∀ j < hashQuoteMarker.length,
    hashQuoteMarker.drop j <+: hashQuoteMarker → j = 0 ∨ j = 25 ∨ j = 26 := by
  decide

/-- The source contains no `#'` behind the marker without its last one or two characters. -/
def MarkersApart (source : Str) : Prop :=
  ¬ str "__KJDMUD_HASHQUOTE_MARKER#'" <:+: source ∧
    ¬ str "__KJDMUD_HASHQUOTE_MARKER_#'" <:+: source

instance (source : Str) : Decidable (MarkersApart source) :=
  inferInstanceAs (Decidable (_ ∧ _))

theorem spellings : str "__KJDMUD_HASHQUOTE_MARKER#'" = hashQuoteMarker.take 25 ++ [35, 39] ∧
    str "__KJDMUD_HASHQUOTE_MARKER_#'" = hashQuoteMarker.take 26 ++ [35, 39] := by
  decide

/-- Behind other characters a `#'` is masked. -/
theorem text_of_source (masks : Masks before items)
    (plain : ∀ x ∈ w, x ≠ 35 ∧ x ≠ 39 ∧ x ≠ 46) (first : before ≠ some 39)
    (source : items.flatMap Item.source = w ++ 35 :: 39 :: b) :
    w ++ hashQuoteMarker <+: text items := by
  induction w generalizing before items with
  | nil =>
      cases items with
      | nil => cases source
      | cons item items =>
          cases item with
          | char c =>
              obtain ⟨rfl, behind⟩ := List.cons.inj source
              cases items with
              | nil => cases behind
              | cons next items =>
                  cases next with
                  | char d =>
                      obtain ⟨rfl, _⟩ := List.cons.inj behind
                      exact absurd ⟨rfl, rfl, first⟩ masks.1
                  | hashQuote => cases (List.cons.inj behind).1
                  | range => cases (List.cons.inj behind).1
          | hashQuote => exact List.prefix_append hashQuoteMarker _
          | range => cases (List.cons.inj source).1
  | cons x w ih =>
      have here := plain x List.mem_cons_self
      cases items with
      | nil => cases source
      | cons item items =>
          cases item with
          | char c =>
              obtain ⟨rfl, behind⟩ := List.cons.inj source
              have next : some c ≠ some 39 := fun same => here.2.1 (Option.some.inj same)
              refine List.cons_prefix_cons.mpr ⟨rfl, ?_⟩
              exact ih masks.2 (fun y inside => plain y (List.mem_cons_of_mem c inside)) next
                behind
          | hashQuote => exact absurd (List.cons.inj source).1.symm here.1
          | range => exact absurd (List.cons.inj source).1.symm here.2.2

/-- The items behind a place of the source where a character stands that is not masked. -/
theorem items_behind (masks : Masks before items) (apart : Apart items)
    (plain : c ≠ 35 ∧ c ≠ 39 ∧ c ≠ 46) (source : items.flatMap Item.source = a ++ c :: b) :
    ∃ before items, Masks before (.char c :: items) ∧ Apart (.char c :: items) ∧
      items.flatMap Item.source = b := by
  induction items generalizing before a with
  | nil =>
      cases a with
      | nil => cases source
      | cons x a => cases source
  | cons item items ih =>
      cases item with
      | char d =>
          cases a with
          | nil =>
              obtain ⟨rfl, behind⟩ := List.cons.inj source
              exact ⟨before, items, masks, apart, behind⟩
          | cons x a => exact ih masks.2 apart.2 (List.cons.inj source).2
      | hashQuote =>
          cases a with
          | nil => exact absurd (List.cons.inj source).1.symm plain.1
          | cons x a =>
              cases a with
              | nil => exact absurd (List.cons.inj (List.cons.inj source).2).1.symm plain.2.1
              | cons y a =>
                  exact ih masks.2 apart (List.cons.inj (List.cons.inj source).2).2
      | range =>
          cases a with
          | nil => exact absurd (List.cons.inj source).1.symm plain.2.2
          | cons x a =>
              cases a with
              | nil => exact absurd (List.cons.inj (List.cons.inj source).2).1.symm plain.2.2
              | cons y a => exact ih masks apart (List.cons.inj (List.cons.inj source).2).2

/-- The markers of a source that contains none are apart exactly when the source does not
contain most of one in front of a `#'`. -/
theorem apart_iff (masks : Masks before items)
    (unmarked : ¬ hashQuoteMarker <:+: items.flatMap Item.source) :
    Apart items ↔ MarkersApart (items.flatMap Item.source) := by
  constructor
  · intro apart
    have clear : ∀ w : Str, (∀ x ∈ w, x ≠ 35 ∧ x ≠ 39 ∧ x ≠ 46) →
        hashQuoteMarker <+: 95 :: (w ++ hashQuoteMarker) →
        ¬ 95 :: (w ++ [35, 39]) <:+: items.flatMap Item.source := by
      rintro w plain border ⟨a, b, source⟩
      have place : items.flatMap Item.source = a ++ 95 :: (w ++ 35 :: 39 :: b) := by
        rw [← source]
        simp
      obtain ⟨before, behind, masks, apart, rest⟩ :=
        items_behind masks apart (by decide) place
      have marked := text_of_source masks.2 plain (by decide) rest
      exact apart.1 (border.trans (List.cons_prefix_cons.mpr ⟨rfl, marked⟩))
    rw [MarkersApart, spellings.1, spellings.2]
    exact ⟨clear (hashQuoteMarker.tail.take 24) (by decide +kernel) (by decide +kernel),
      clear (hashQuoteMarker.tail.take 25) (by decide +kernel) (by decide +kernel)⟩
  · intro apart
    rw [MarkersApart, spellings.1, spellings.2] at apart
    induction items generalizing before with
    | nil => trivial
    | cons item items ih =>
        have suffix : items.flatMap Item.source <:+ (item :: items).flatMap Item.source :=
          List.suffix_append item.source _
        have behind : ∀ before, Masks before items → Apart items := fun _ masks =>
          ih masks (fun inside => unmarked (inside.trans suffix.isInfix))
            ⟨fun inside => apart.1 (inside.trans suffix.isInfix),
              fun inside => apart.2 (inside.trans suffix.isInfix)⟩
        cases item with
        | char c =>
            refine ⟨fun starts => ?_, behind (some c) masks.2⟩
            have reads : hashQuoteMarker <+: text (.char c :: items) := starts
            rcases prefix_text (by decide) (Nat.le_refl _) reads with
              source | ⟨j, below, source, border⟩
            · exact unmarked source.isInfix
            · rcases borders j below border with rfl | rfl | rfl
              · have same : c = 95 := (List.cons_prefix_cons.mp starts).1.symm
                rw [same] at source
                cases (List.cons_prefix_cons.mp source).1
              · exact apart.1 source.isInfix
              · exact apart.2 source.isInfix
        | hashQuote => exact behind (some 39) masks.2
        | range => exact behind (some 46) masks

end Markers

/-! ## Unmasking -/

section Unmask

variable {items : List Item} {p : Str} {c : UInt8}

theorem unmaskHashQuote_hashQuote (items : List Item) :
    unmaskHashQuote (text (.hashQuote :: items)) =
      35 :: 39 :: unmaskHashQuote (text items) :=
  restore_marker (by decide) _

theorem unmaskHashQuote_range (items : List Item) :
    unmaskHashQuote (text (.range :: items)) =
      maskedRange ++ unmaskHashQuote (text items) := by
  apply restore_append
  intro z nonempty suffix
  rcases List.suffix_concat_iff.mp suffix with rfl | ⟨front, rfl, within⟩
  · exact absurd rfl nonempty
  · rw [List.append_assoc]
    apply not_prefix_of_separator (by decide)
    exact Nat.lt_of_le_of_lt within.length_le (by decide)

theorem unmaskHashQuote_char (apart : ¬ hashQuoteMarker <+: c :: text items) :
    unmaskHashQuote (text (.char c :: items)) = c :: unmaskHashQuote (text items) :=
  restore_of_not_prefix apart

/-- What the first step leaves contains no new `..` marker. -/
theorem source_of_unmaskHashQuote (noHash : 35 ∉ p) (noSpace : 32 ∉ p)
    (starts : p <+: unmaskHashQuote (text items)) : p <+: items.flatMap Item.source := by
  induction items generalizing p with
  | nil => exact starts
  | cons item items ih =>
      cases p with
      | nil => exact List.nil_prefix
      | cons x p =>
          cases item with
          | char c =>
              by_cases apart : hashQuoteMarker <+: c :: text items
              · have confused : unmaskHashQuote (text (.char c :: items)) = _ :=
                  restore_of_prefix apart
                rw [confused] at starts
                obtain ⟨rfl, _⟩ := List.cons_prefix_cons.mp starts
                exact absurd List.mem_cons_self noHash
              · rw [unmaskHashQuote_char apart] at starts
                obtain ⟨rfl, behind⟩ := List.cons_prefix_cons.mp starts
                refine List.cons_prefix_cons.mpr ⟨rfl, ?_⟩
                exact ih (fun inside => noHash (List.mem_cons_of_mem x inside))
                  (fun inside => noSpace (List.mem_cons_of_mem x inside)) behind
          | hashQuote =>
              rw [unmaskHashQuote_hashQuote] at starts
              obtain ⟨rfl, _⟩ := List.cons_prefix_cons.mp starts
              exact absurd List.mem_cons_self noHash
          | range =>
              rw [unmaskHashQuote_range] at starts
              obtain ⟨rfl, _⟩ := List.cons_prefix_cons.mp starts
              exact absurd List.mem_cons_self noSpace

theorem unmaskDotDot_cons (other : c ≠ 95) (x : Str) :
    unmaskDotDot (c :: x) = c :: unmaskDotDot x := by
  apply restore_of_not_prefix
  intro starts
  exact other (List.cons_prefix_cons.mp starts).1.symm

theorem unmask_hashQuote (items : List Item) :
    unmaskAfterSystemCpp (text (.hashQuote :: items)) =
      35 :: 39 :: unmaskAfterSystemCpp (text items) := by
  rw [unmaskAfterSystemCpp, unmaskHashQuote_hashQuote, unmaskDotDot_cons (by decide),
    unmaskDotDot_cons (by decide)]
  rfl

theorem unmask_range (items : List Item) :
    unmaskAfterSystemCpp (text (.range :: items)) =
      32 :: 46 :: 46 :: 32 :: unmaskAfterSystemCpp (text items) := by
  have restored : unmaskDotDot (dotDotMarker ++ 32 :: unmaskHashQuote (text items)) =
      46 :: 46 :: unmaskDotDot (32 :: unmaskHashQuote (text items)) :=
    restore_marker (by decide) _
  have spread : maskedRange ++ unmaskHashQuote (text items) =
      32 :: (dotDotMarker ++ 32 :: unmaskHashQuote (text items)) := by
    rw [maskedRange, List.cons_append, List.cons_append, List.append_assoc]
    rfl
  rw [unmaskAfterSystemCpp, unmaskHashQuote_range, spread, unmaskDotDot_cons (by decide),
    restored, unmaskDotDot_cons (by decide)]
  rfl

/-- A character at which no marker starts comes back. -/
theorem unmask_char (apart : ¬ hashQuoteMarker <+: c :: text items)
    (unmarked : ¬ dotDotMarker <+: c :: items.flatMap Item.source) :
    unmaskAfterSystemCpp (text (.char c :: items)) =
      c :: unmaskAfterSystemCpp (text items) := by
  rw [unmaskAfterSystemCpp, unmaskHashQuote_char apart]
  apply restore_of_not_prefix
  intro starts
  rw [← unmaskHashQuote_char apart] at starts
  have source := source_of_unmaskHashQuote (by decide) (by decide) starts
  exact unmarked source

/-- A marker that starts at a character of the source takes it away. -/
theorem unmask_confused (starts : hashQuoteMarker <+: c :: text items) :
    ∃ rest, unmaskAfterSystemCpp (text (.char c :: items)) = 35 :: rest := by
  have confused : unmaskHashQuote (text (.char c :: items)) = [35, 39] ++ _ :=
    restore_of_prefix starts
  rw [unmaskAfterSystemCpp, confused]
  exact ⟨_, unmaskDotDot_cons (by decide) _⟩

end Unmask

/-! ## The bare quotes -/

section Bare

variable {dialect : LpcDialect} {before : Option UInt8} {context context' : Context} {mode : Mode}
  {c d : UInt8} {rest : Str} {taken : Nat}

/-- Where nothing misleads, the bare quotes tell what the lexer reads. -/
def Agrees (dialect : LpcDialect) (s : Str) : Prop :=
  ∀ before (mode : Mode), misledFrom dialect before mode.context 0 s = false →
    (bareFrom before mode.context 0 s).flatMap Item.pieces = piecesFrom dialect mode.context 0 s

theorem piecesFrom_lexeme (takes : lexeme dialect context c rest = some (taken, context')) :
    piecesFrom dialect context 0 (c :: rest) =
      .char c :: piecesFrom dialect context' taken rest := by
  rw [piecesFrom.eq_def]
  simp only [takes]

theorem misledFrom_lexeme (takes : lexeme dialect context c rest = some (taken, context')) :
    misledFrom dialect before context 0 (c :: rest) = false ↔
      misleads dialect before context c rest = false ∧
        misledFrom dialect (some c) context' taken rest = false := by
  rw [misledFrom.eq_def]
  simp only [takes, Bool.or_eq_false_iff]

/-- Both readings take the same lexeme, and nothing behind its first character. -/
theorem agrees_lexeme (mode : Mode) (agrees : Agrees dialect rest)
    (other : ¬ startsClosure before c rest = true)
    (bare : bareLexeme context c rest = some (0, mode.context))
    (takes : lexeme dialect context c rest = some (0, mode.context))
    (straight : misledFrom dialect before context 0 (c :: rest) = false) :
    (bareFrom before context 0 (c :: rest)).flatMap Item.pieces =
      piecesFrom dialect context 0 (c :: rest) := by
  have behind := ((misledFrom_lexeme takes).mp straight).2
  rw [bareFrom_lexeme other bare, List.flatMap_cons, agrees (some c) mode behind,
    piecesFrom_lexeme takes]
  rfl

/-- A `#'` is nothing to a string or a comment. -/
theorem lexeme_inert (outside : mode ≠ .code ∧ mode ≠ .sQuote) (inert : c = 35 ∨ c = 39) :
    lexeme dialect mode.context c rest = some (0, mode.context) := by
  cases mode with
  | code => exact absurd rfl outside.1
  | sQuote => exact absurd rfl outside.2
  | dQuote | lineComment | blockComment =>
      rcases inert with rfl | rfl <;> simp [Mode.context, lexeme]

/-- A `#'` in a string or a comment is the same to both readings. -/
theorem agrees_inert (agrees : Agrees dialect rest) (outside : mode ≠ .code ∧ mode ≠ .sQuote)
    (straight : misledFrom dialect before mode.context 0 (39 :: rest) = false) :
    .char 39 :: (bareFrom (some 39) mode.context 0 rest).flatMap Item.pieces =
      piecesFrom dialect mode.context 0 (39 :: rest) := by
  have takes : lexeme dialect mode.context 39 rest = some (0, mode.context) :=
    lexeme_inert outside (.inr rfl)
  rw [agrees (some 39) mode ((misledFrom_lexeme takes).mp straight).2, piecesFrom_lexeme takes]

/-- A `#'` that misleads nobody. -/
theorem agrees_closure (agrees : Agrees dialect rest) (first : before ≠ some 39)
    (straight : misledFrom dialect before mode.context 0 (35 :: 39 :: rest) = false) :
    (bareFrom before mode.context 0 (35 :: 39 :: rest)).flatMap Item.pieces =
      piecesFrom dialect mode.context 0 (35 :: 39 :: rest) := by
  have closure : startsClosure before 35 (39 :: rest) = true :=
    startsClosure_iff.mpr ⟨rfl, rfl, first⟩
  rw [bareFrom_closure closure]
  change .char 35 :: .char 39 :: (bareFrom (some 39) mode.context 0 rest).flatMap Item.pieces = _
  by_cases outside : mode ≠ .code ∧ mode ≠ .sQuote
  · have takes : lexeme dialect mode.context 35 (39 :: rest) = some (0, mode.context) :=
      lexeme_inert outside (.inl rfl)
    have behind := ((misledFrom_lexeme takes).mp straight).2
    rw [agrees_inert agrees outside behind, piecesFrom_lexeme takes]
  · have inside : mode = .code ∨ mode = .sQuote := by
      cases mode <;> simp at outside ⊢
    rcases inside with rfl | rfl
    · have closes : dialect = .ldMud := by
        rw [misledFrom.eq_def] at straight
        simp only [Mode.context, misleads, Bool.or_eq_false_iff] at straight
        simpa [first] using straight.1
      subst closes
      have takes : lexeme .ldMud .code 35 (39 :: rest) = some (1, .code) := by simp [lexeme]
      have behind := ((misledFrom_lexeme takes).mp straight).2
      rw [misledFrom, Bool.or_eq_false_iff] at behind
      rw [agrees (some 39) .code behind.2]
      exact (piecesFrom_lexeme takes).symm
    · rw [misledFrom.eq_def] at straight
      simp only [Mode.context, misleads, closure, Bool.true_or] at straight
      cases straight

/-- Both readings take one more character, which is no `#` outside strings and constants. -/
theorem agrees_taken (mode : Mode) (shorter : ∀ r, r.length ≤ rest.length → Agrees dialect r)
    (harmless : d = 35 → mode = .dQuote ∨ mode = .sQuote)
    (straight : misledFrom dialect before mode.context 1 (d :: rest) = false) :
    (bareFrom before mode.context 1 (d :: rest)).flatMap Item.pieces =
      piecesFrom dialect mode.context 1 (d :: rest) := by
  rw [misledFrom, Bool.or_eq_false_iff] at straight
  by_cases closure : startsClosure before d rest = true
  · obtain ⟨rfl, quote, first⟩ := startsClosure_iff.mp closure
    rcases harmless rfl with rfl | rfl
    · cases rest with
      | nil => cases quote
      | cons e rest =>
          have same : e = 39 := by simpa using quote
          subst same
          rw [bareFrom_closure closure, piecesFrom, ← agrees_inert
            (shorter rest (Nat.le_succ _)) ⟨by decide, by decide⟩ straight.2]
          rfl
    · have open' := straight.1
      rw [closure] at open'
      cases open'
  · rw [bareFrom_taken closure, List.flatMap_cons,
      shorter rest (Nat.le_refl _) (some d) mode straight.2, piecesFrom]
    rfl

/-- Both readings take the same two characters. -/
theorem agrees_pair (mode : Mode) (shorter : ∀ r, r.length ≤ rest.length → Agrees dialect r)
    (other : ¬ startsClosure before c (d :: rest) = true)
    (harmless : d = 35 → mode = .dQuote ∨ mode = .sQuote)
    (bare : bareLexeme context c (d :: rest) = some (1, mode.context))
    (takes : lexeme dialect context c (d :: rest) = some (1, mode.context))
    (straight : misledFrom dialect before context 0 (c :: d :: rest) = false) :
    (bareFrom before context 0 (c :: d :: rest)).flatMap Item.pieces =
      piecesFrom dialect context 0 (c :: d :: rest) := by
  have behind := ((misledFrom_lexeme takes).mp straight).2
  rw [bareFrom_lexeme other bare, List.flatMap_cons, agrees_taken mode shorter harmless behind,
    piecesFrom_lexeme takes]
  rfl

/-- A constant that opens: a quote is misleading, and an escape takes its character. -/
theorem agrees_quote (shorter : ∀ r, r.length ≤ rest.length → Agrees dialect r)
    (straight : misledFrom dialect before .code 0 (39 :: rest) = false) :
    (bareFrom before .code 0 (39 :: rest)).flatMap Item.pieces =
      piecesFrom dialect .code 0 (39 :: rest) := by
  have other : ¬ startsClosure before 39 rest = true := fun closure => by
    cases (startsClosure_iff.mp closure).1
  have notMisled := straight
  rw [misledFrom.eq_def] at notMisled
  simp only [misleads, Bool.or_eq_false_iff, beq_self_eq_true, Bool.true_and] at notMisled
  obtain ⟨⟨⟨⟨symbol, quote⟩, _⟩, _⟩, _⟩ := notMisled
  have takes : lexeme dialect .code 39 rest =
      some (if rest.head? = some 92 then 2 else 1, .constant) := by
    simp [lexeme, symbol]
  have behind := ((misledFrom_lexeme takes).mp straight).2
  have bare : bareLexeme .code 39 rest = some (0, .constant) := rfl
  rw [bareFrom_lexeme other bare, piecesFrom_lexeme takes]
  refine congrArg (Piece.char 39 :: ·) ?_
  cases rest with
  | nil => rfl
  | cons x rest =>
      have inside : ¬ startsClosure (some 39) x rest = true := fun closure =>
        (startsClosure_iff.mp closure).2.2 rfl
      by_cases escape : x = 92
      · subst escape
        cases rest with
        | nil => rfl
        | cons d rest =>
            have taken : bareLexeme .constant 92 (d :: rest) = some (1, .constant) := by
              simp [bareLexeme, lexeme]
            simp only [List.head?_cons, if_true] at behind ⊢
            rw [misledFrom, Bool.or_eq_false_iff] at behind
            rw [bareFrom_lexeme inside taken, piecesFrom]
            exact congrArg (Piece.char 92 :: ·) (agrees_taken .sQuote
              (fun r short => shorter r (short.trans (Nat.le_add_right _ 2)))
              (fun _ => .inr rfl) behind.2)
      · have apart : x ≠ 39 := by simpa using quote
        have taken : bareLexeme .constant x rest = some (0, .constant) := by
          simp [bareLexeme, lexeme, escape, apart]
        have single : ¬ (x :: rest).head? = some 92 := by simpa using escape
        rw [if_neg single, misledFrom, Bool.or_eq_false_iff] at behind
        rw [if_neg single, bareFrom_lexeme inside taken, piecesFrom]
        exact congrArg (Piece.char x :: ·)
          (shorter rest (Nat.le_succ _) (some x) .sQuote behind.2)

/-- Outside the code both readings take the same. -/
theorem agrees_outside (shorter : ∀ r, r.length ≤ rest.length → Agrees dialect r)
    (other : ¬ startsClosure before c rest = true) (outside : mode ≠ .code)
    (straight : misledFrom dialect before mode.context 0 (c :: rest) = false) :
    (bareFrom before mode.context 0 (c :: rest)).flatMap Item.pieces =
      piecesFrom dialect mode.context 0 (c :: rest) := by
  have alike : bareLexeme mode.context c rest = lexeme dialect mode.context c rest := by
    cases mode with
    | code => exact absurd rfl outside
    | lineComment | blockComment | dQuote | sQuote => simp [bareLexeme, Mode.context, lexeme]
  let Step := (∃ mode' : Mode, lexeme dialect mode.context c rest = some (0, mode'.context)) ∨
    ∃ (mode' : Mode) (d : UInt8) (behind : Str), rest = d :: behind ∧
      (d = 35 → mode' = .dQuote ∨ mode' = .sQuote) ∧
      lexeme dialect mode.context c rest = some (1, mode'.context)
  have quoted (inside : mode = .dQuote ∨ mode = .sQuote) : Step := by
    obtain ⟨quote, takes⟩ : ∃ quote, lexeme dialect mode.context c rest =
        if c = 92 ∧ rest ≠ [] then some (1, mode.context)
        else some (0, if c = quote then .code else mode.context) := by
      rcases inside with rfl | rfl <;> exact ⟨_, rfl⟩
    by_cases escape : c = 92 ∧ rest ≠ []
    · obtain ⟨d, behind, rfl⟩ := List.exists_cons_of_ne_nil escape.2
      exact .inr ⟨mode, d, behind, rfl, fun _ => inside, takes.trans (if_pos escape)⟩
    · rw [if_neg escape] at takes
      by_cases ends : c = quote
      · exact .inl ⟨.code, by rw [takes, if_pos ends]; rfl⟩
      · exact .inl ⟨mode, by rw [takes, if_neg ends]⟩
  have step : Step := by
    cases mode with
    | code => exact absurd rfl outside
    | lineComment =>
        by_cases newline : c = 10
        · exact .inl ⟨.code, by simp [Mode.context, lexeme, newline]⟩
        · exact .inl ⟨.lineComment, by simp [Mode.context, lexeme, newline]⟩
    | blockComment =>
        by_cases ends : c = 42 ∧ rest.head? = some 47
        · obtain ⟨behind, rfl⟩ := List.head?_eq_some_iff.mp ends.2
          refine .inr ⟨.code, 47, behind, rfl, (fun hash => by cases hash), ?_⟩
          simp [Mode.context, lexeme, ends.1]
        · exact .inl ⟨.blockComment, by simp [Mode.context, lexeme, ends]⟩
    | dQuote => exact quoted (.inl rfl)
    | sQuote => exact quoted (.inr rfl)
  rcases step with ⟨mode', takes⟩ | ⟨mode', d, behind, rfl, harmless, takes⟩
  · exact agrees_lexeme mode' (shorter rest (Nat.le_refl _)) other (alike.trans takes) takes straight
  · exact agrees_pair mode' (fun r short => shorter r (short.trans (Nat.le_succ _))) other
      harmless
      (alike.trans takes) takes straight

/-- A range operator, or an ellipsis. -/
theorem agrees_dots (shorter : ∀ r, r.length ≤ rest.length → Agrees dialect r)
    (straight : misledFrom dialect before .code 0 (46 :: 46 :: rest) = false) :
    (bareFrom before .code 0 (46 :: 46 :: rest)).flatMap Item.pieces =
      piecesFrom dialect .code 0 (46 :: 46 :: rest) := by
  have point : ∀ before r, ¬ startsClosure before 46 r = true := fun before r closure => by
    cases (startsClosure_iff.mp closure).1
  by_cases ellipsis : rest.head? = some 46
  · obtain ⟨behind, rfl⟩ := List.head?_eq_some_iff.mp ellipsis
    have takes : ∀ dialect, lexeme dialect .code 46 (46 :: 46 :: behind) = some (2, .code) :=
      fun dialect => by simp [lexeme]
    have bare : bareLexeme .code 46 (46 :: 46 :: behind) = some (2, .code) := by
      simp [bareLexeme, takes]
    have past := ((misledFrom_lexeme (takes dialect)).mp straight).2
    rw [misledFrom, misledFrom] at past
    simp only [Bool.or_eq_false_iff] at past
    rw [bareFrom_lexeme (point _ _) bare, bareFrom_taken (point _ _), bareFrom_taken (point _ _),
      piecesFrom_lexeme (takes dialect), piecesFrom, piecesFrom]
    have same := shorter behind (Nat.le_succ _) (some 46) .code past.2.2
    exact congrArg _ (congrArg _ (congrArg _ same))
  · have range : ∀ dialect, lexeme dialect .code 46 (46 :: rest) = none := fun dialect => by
      simp [lexeme, ellipsis]
    have bare : bareLexeme .code 46 (46 :: rest) = none := by simp [bareLexeme, range]
    rw [misledFrom.eq_def] at straight
    simp only [range, Bool.or_eq_false_iff] at straight
    rw [bareFrom_range (point _ _) bare, piecesFrom.eq_def]
    simp only [range]
    exact congrArg _ (shorter rest (Nat.le_refl _) (some 46) .code straight.2)

/-- In the code they do, but for the quotes. -/
theorem agrees_code (shorter : ∀ r, r.length ≤ rest.length → Agrees dialect r)
    (other : ¬ startsClosure before c rest = true)
    (straight : misledFrom dialect before .code 0 (c :: rest) = false) :
    (bareFrom before .code 0 (c :: rest)).flatMap Item.pieces =
      piecesFrom dialect .code 0 (c :: rest) := by
  have same := shorter rest (Nat.le_refl _)
  have misses : misleads dialect before .code c rest = false := by
    rw [misledFrom.eq_def, Bool.or_eq_false_iff] at straight
    exact straight.1
  by_cases quote : c = 39
  · subst quote
    exact agrees_quote shorter straight
  by_cases block : c = 64
  · subst block
    have noBlock : textBlockTerminator rest = none := by simpa [misleads] using misses
    exact agrees_lexeme .code same other rfl
      (by simp [Mode.context, lexeme, noBlock]) straight
  have bare : bareLexeme .code c rest = lexeme .fluffOS .code c rest := by
    simp [bareLexeme, quote, block]
  by_cases hash : c = 35
  · subst hash
    have takes : lexeme dialect .code 35 rest = some (0, .code) := by
      have noClosure : ¬ (dialect = .ldMud ∧ rest.head? = some 39) := by
        rintro ⟨rfl, head⟩
        have first : before = some 39 := by
          by_contra first
          exact other (startsClosure_iff.mpr ⟨rfl, head, first⟩)
        simp [misleads, head, first] at misses
      simp [lexeme, noClosure]
    exact agrees_lexeme .code same other
      (by simp [Mode.context, bareLexeme, lexeme]) takes straight
  -- The other characters of the code are the same to every dialect.
  have alike : lexeme dialect .code c rest = lexeme .fluffOS .code c rest := by
    simp [lexeme, quote, hash]
  have single : ∀ mode : Mode, lexeme .fluffOS .code c rest = some (0, mode.context) →
      (bareFrom before .code 0 (c :: rest)).flatMap Item.pieces =
        piecesFrom dialect .code 0 (c :: rest) :=
    fun mode takes => agrees_lexeme mode same other (bare.trans takes) (alike.trans takes) straight
  by_cases string : c = 34
  · exact single .dQuote (by simp [Mode.context, lexeme, string])
  cases rest with
  | nil => exact single .code (by simp [Mode.context, lexeme, string, quote, block])
  | cons d behind =>
      have pair : ∀ mode : Mode, d ≠ 35 →
          lexeme .fluffOS .code c (d :: behind) = some (1, mode.context) →
          (bareFrom before .code 0 (c :: d :: behind)).flatMap Item.pieces =
            piecesFrom dialect .code 0 (c :: d :: behind) := fun mode plain takes =>
        agrees_pair mode (fun r short => shorter r (short.trans (Nat.le_succ _))) other
          (fun hash => absurd hash plain) (bare.trans takes) (alike.trans takes) straight
      by_cases line : c = 47 ∧ d = 47
      · exact pair .lineComment (by simp [line.2]) (by simp [Mode.context, lexeme, line])
      by_cases comment : c = 47 ∧ d = 42
      · exact pair .blockComment (by simp [comment.2]) (by simp [Mode.context, lexeme, comment])
      by_cases dots : c = 46 ∧ d = 46
      · obtain ⟨rfl, rfl⟩ := dots
        exact agrees_dots (fun r short => shorter r (short.trans (Nat.le_succ _))) straight
      · exact single .code
          (by simp [Mode.context, lexeme, string, quote, block, line, comment, dots])

/-- A source that misleads nobody. -/
theorem agrees (dialect : LpcDialect) : ∀ s : Str, Agrees dialect s
  | [], before, mode, _ => rfl
  | c :: rest, before, mode, straight => by
      have shorter : ∀ r : Str, r.length ≤ rest.length → Agrees dialect r := fun r _ =>
        agrees dialect r
      by_cases closure : startsClosure before c rest = true
      · obtain ⟨rfl, quote, first⟩ := startsClosure_iff.mp closure
        cases rest with
        | nil => cases quote
        | cons e rest =>
            have same : e = 39 := by simpa using quote
            subst same
            exact agrees_closure (shorter rest (Nat.le_succ _)) first straight
      · by_cases outside : mode = .code
        · subst outside
          exact agrees_code shorter closure straight
        · exact agrees_outside shorter closure outside straight
termination_by s => s.length

end Bare

/-! ## Transparency -/

section Transparent

variable {ps : List Piece} {c : UInt8} {s : Str}

/-- The pieces of a source that starts with a character. -/
theorem pieces_of_source (source : ps.flatMap Piece.source = c :: s) :
    (∃ behind, ps = .char c :: behind ∧ behind.flatMap Piece.source = s) ∨
      ∃ behind, ps = .range :: behind ∧ c = 46 ∧ s = 46 :: behind.flatMap Piece.source := by
  cases ps with
  | nil => cases source
  | cons piece ps =>
      cases piece with
      | char d =>
          obtain ⟨rfl, behind⟩ := List.cons.inj source
          exact .inl ⟨ps, rfl, behind⟩
      | range =>
          obtain ⟨rfl, behind⟩ := List.cons.inj source
          exact .inr ⟨ps, rfl, rfl, behind.symm⟩

/-- Unmasking gives the source with the range operators of some reading of it spaced exactly
when the markers are apart and the maskers see that reading. -/
theorem unmask_eq_iff {items : List Item}
    (unmarked : ¬ dotDotMarker <:+: items.flatMap Item.source)
    (source : ps.flatMap Piece.source = items.flatMap Item.source) :
    unmaskAfterSystemCpp (text items) = ps.flatMap Piece.spaced ↔
      Apart items ∧ items.flatMap Item.pieces = ps := by
  induction items generalizing ps with
  | nil =>
      cases ps with
      | nil => exact ⟨fun _ => ⟨trivial, rfl⟩, fun _ => rfl⟩
      | cons piece ps => cases piece <;> cases source
  | cons item items ih =>
      have suffix : items.flatMap Item.source <:+ (item :: items).flatMap Item.source :=
        List.suffix_append item.source _
      have behind : ∀ qs : List Piece, qs.flatMap Piece.source = items.flatMap Item.source →
          (unmaskAfterSystemCpp (text items) = qs.flatMap Piece.spaced ↔
            Apart items ∧ items.flatMap Item.pieces = qs) :=
        fun qs => ih fun inside => unmarked (inside.trans suffix.isInfix)
      cases item with
      | char c =>
          have noRange : ¬ dotDotMarker <+: c :: items.flatMap Item.source :=
            fun inside => unmarked inside.isInfix
          rcases pieces_of_source source with ⟨qs, rfl, same⟩ | ⟨qs, rfl, rfl, _⟩
          · by_cases starts : hashQuoteMarker <+: c :: text items
            · obtain ⟨rest, confused⟩ := unmask_confused starts
              have underscore : c = 95 := (List.cons_prefix_cons.mp starts).1.symm
              rw [confused]
              constructor
              · intro equal
                rw [underscore] at equal
                cases (List.cons.inj equal).1
              · intro apart
                exact absurd starts apart.1.1
            · rw [unmask_char starts noRange]
              refine List.cons_inj_right c |>.trans ((behind qs same).trans ?_)
              constructor
              · rintro ⟨apart, rfl⟩
                exact ⟨⟨starts, apart⟩, rfl⟩
              · rintro ⟨apart, equal⟩
                exact ⟨apart.2, (List.cons.inj equal).2⟩
          · have starts : ¬ hashQuoteMarker <+: (46 : UInt8) :: text items := by
              intro starts
              cases (List.cons_prefix_cons.mp starts).1
            rw [unmask_char starts noRange]
            constructor
            · intro equal
              cases (List.cons.inj equal).1
            · rintro ⟨_, equal⟩
              cases (List.cons.inj equal).1
      | hashQuote =>
          rcases pieces_of_source source with ⟨ps, rfl, quote⟩ | ⟨_, _, point, _⟩
          · rcases pieces_of_source quote with ⟨qs, rfl, same⟩ | ⟨_, _, point, _⟩
            · rw [unmask_hashQuote]
              refine (List.cons_inj_right 35).trans ((List.cons_inj_right 39).trans
                ((behind qs same).trans ?_))
              constructor
              · rintro ⟨apart, rfl⟩
                exact ⟨apart, rfl⟩
              · rintro ⟨apart, equal⟩
                exact ⟨apart, (List.cons.inj (List.cons.inj equal).2).2⟩
            · cases point
          · cases point
      | range =>
          rw [unmask_range]
          rcases pieces_of_source source with ⟨qs, rfl, _⟩ | ⟨qs, rfl, _, dots⟩
          · constructor
            · intro equal
              cases (List.cons.inj equal).1
            · rintro ⟨_, equal⟩
              cases (List.cons.inj equal).1
          · have same := (List.cons.inj dots).2.symm
            refine (List.cons_inj_right 32).trans ((List.cons_inj_right 46).trans
              ((List.cons_inj_right 46).trans ((List.cons_inj_right 32).trans
                ((behind qs same).trans ?_))))
            constructor
            · rintro ⟨apart, rfl⟩
              exact ⟨apart, rfl⟩
            · rintro ⟨apart, equal⟩
              exact ⟨apart, (List.cons.inj equal).2⟩

/-- A source without markers comes back with its range operators spaced exactly when it does
not contain most of a marker in front of a `#'`, and where a lexeme of it misleads, its bare
quotes still tell the range operators of the source. -/
theorem transparent_iff (dialect : LpcDialect) (s : Str) (unmarked : Unmarked s) :
    unmaskAfterSystemCpp (maskForSystemCpp s) = spaced dialect s ↔
      MarkersApart s ∧ (misled dialect s = true → barePieces s = pieces dialect s) := by
  have source := source_bareFrom none .code 0 s
  have reads : (pieces dialect s).flatMap Piece.source =
      (bareFrom none .code 0 s).flatMap Item.source := by
    rw [source, source_pieces]
  have masks := masks_bareFrom none .code 0 s
  rw [maskForSystemCpp_eq]
  refine (unmask_eq_iff (source.symm ▸ unmarked.2) reads).trans ?_
  rw [apart_iff masks (source.symm ▸ unmarked.1), source]
  refine and_congr_right fun _ => ⟨fun same _ => same, fun follows => ?_⟩
  by_cases misleading : misled dialect s = true
  · exact follows misleading
  · exact agrees dialect s none .code (by simpa [misled, Mode.context] using misleading)

/-- A range between two numbers. -/
theorem transparent_range :
    Unmarked (str "a[0..1]") ∧
      unmaskAfterSystemCpp (maskForSystemCpp (str "a[0..1]")) = str "a[0 .. 1]" := by
  have unmarked : Unmarked (str "a[0..1]") := by decide +kernel
  have straight : misled .ldMud (str "a[0..1]") = false := by decide +kernel
  have read : MarkersApart (str "a[0..1]") ∧ (misled .ldMud (str "a[0..1]") = true →
      barePieces (str "a[0..1]") = pieces .ldMud (str "a[0..1]")) :=
    ⟨by decide +kernel, fun misleading => by simp [straight] at misleading⟩
  have shown : spaced .ldMud (str "a[0..1]") = str "a[0 .. 1]" := by decide +kernel
  exact ⟨unmarked, ((transparent_iff .ldMud _ unmarked).mpr read).trans shown⟩

/-- The closing quote of a constant goes with a masked `#'`, and the range behind it is not
masked. -/
theorem constant_confuses : ¬ ∀ dialect s, Unmarked s →
    unmaskAfterSystemCpp (maskForSystemCpp s) = spaced dialect s := by
  intro claim
  have wrong := claim .ldMud (str "c=='\\#';a[0..1]") (by decide +kernel)
  revert wrong
  decide +kernel

end Transparent

end Kjdmud.Object.Masking
