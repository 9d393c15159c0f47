import Kjdmud.Lib.Cut
import Kjdmud.Vm.Value

/-!
# Splitting, joining and replacing strings

`explode`, `explode_reversible`, `implode` with a string as second argument, and
`replace_string` of `src/efun/EfunTable.cpp`.  A loop that goes over a string holds what it
has not read yet: a `find` from there and two `substr` are a cut.
-/

namespace Kjdmud.Efun.Explode

open Kjdmud.Vm (Value World)
open Drain (cutAt fields joinNumbered length_of_cutAt)

/-- The string that an argument is. -/
def argString (args : List Value) (i : Nat) : Option Str :=
  match args[i]? with
  | some ⟨.string s, _, _⟩ => some s
  | _ => none

/-- A new array of strings. -/
def newStrings (w : World) (strings : List Str) : World × Value :=
  let (w, data) := w.newArray (strings.map Value.string)
  (w, ⟨data, false, false⟩)

/-! ## The efuns -/

/-- The loop that splits, with what it does with the rest when no separator is left. -/
def splitLoop (sep : Str) (nonempty : sep ≠ []) (ending : Str → List Str) (rest : Str)
    (items : List Str) : List Str :=
  match _cut : cutAt sep rest with
  | none => items ++ ending rest
  | some (before, after) => splitLoop sep nonempty ending after (items ++ [before])
termination_by rest.length
decreasing_by exact length_of_cutAt nonempty _cut

/-- The separators at the front; nothing when there is nothing behind them. -/
def skipLeading (sep : Str) (nonempty : sep ≠ []) (rest : Str) : Option Str :=
  if _starts : sep.isPrefixOf rest then
    if rest.drop sep.length = [] then none
    else skipLeading sep nonempty (rest.drop sep.length)
  else some rest
termination_by rest.length
decreasing_by exact length_of_cutAt nonempty (Drain.cutAt_of_prefix nonempty _starts)

/-- `explode`. -/
def explode (w : World) (args : List Value) : Except Str (World × Value) :=
  match argString args 0, argString args 1 with
  | some s, some sep =>
      if nonempty : sep = [] then .ok (newStrings w [s])
      else
        match skipLeading sep nonempty s with
        -- nothing but separators
        | none => .ok (newStrings w [])
        | some rest =>
            .ok (newStrings w (splitLoop sep nonempty
              (fun rest => if rest = [] then [] else [rest]) rest []))
  | _, _ => .error (str "explode: expected (string, string) arguments")

/-- `explode_reversible`. -/
def explodeReversible (w : World) (args : List Value) : Except Str (World × Value) :=
  match argString args 0, argString args 1 with
  | some s, some sep =>
      if nonempty : sep = [] then
        .error (str "explode_reversible: delimiter must be non-empty")
      else .ok (newStrings w (splitLoop sep nonempty (fun rest => [rest]) s []))
  | _, _ => .error (str "explode_reversible: expected (string, string) arguments")

/-- The loop of `implode` with a string: elements that are no strings are skipped. -/
def implodeLoop (sep : Str) : List Value → Str → Bool → Str
  | [], result, _ => result
  | ⟨.string s, _, _⟩ :: items, result, any =>
      implodeLoop sep items ((if any then result ++ sep else result) ++ s) true
  | _ :: items, result, any => implodeLoop sep items result any

/-- `implode`; nothing when the second argument is no string, since it is called then. -/
def implode (w : World) (args : List Value) : Option (Except Str Value) :=
  if args.length < 2 ∨ 3 < args.length then
    some (.error (str "implode: expected (array, string | function[, start]) arguments"))
  else
    match args.head?, argString args 1 with
    | some ⟨.array ref, _, _⟩, some sep =>
        if args.length = 3 then
          some (.error
            (str "implode: third argument is illegal with implode(array, string)"))
        else some (.ok (Value.string (implodeLoop sep ((ref.map w.array).getD []) [] false)))
    | some ⟨.array _, _, _⟩, none => none
    | _, _ => some (.error
        (str "implode: expected (array, string | function[, start]) arguments"))

/-- The loop of `replace_string`, with the number of occurrences that were met. -/
def replaceLoop (pattern : Str) (nonempty : pattern ≠ []) (replacement : Str)
    (first last : Int64) (rest : Str) (cur : Nat) (result : Str) : Str :=
  match _cut : cutAt pattern rest with
  | none => result ++ rest
  | some (before, after) =>
      let cur := cur + 1
      let result := result ++ before ++
        if first.toInt ≤ cur ∧ (last = 0 ∨ (cur : Int) ≤ last.toInt) then replacement
        else pattern
      if last ≠ 0 ∧ (cur : Int) = last.toInt then result ++ after
      else replaceLoop pattern nonempty replacement first last after cur result
termination_by rest.length
decreasing_by exact length_of_cutAt nonempty _cut

/-- `replace_string` behind the checks of its arguments. -/
def replaceBetween (s pattern replacement : Str) (first last : Int64) : Str :=
  if last ≠ 0 ∧ last < first then s
  else if nonempty : pattern = [] then s
  else replaceLoop pattern nonempty replacement first last s 0 []

/-- `replace_string`. -/
def replaceString (args : List Value) : Except Str Value :=
  match argString args 0, argString args 1, argString args 2 with
  | some s, some pattern, some replacement =>
      match args.drop 3 with
      | [] => .ok (Value.string (replaceBetween s pattern replacement 0 0))
      | [⟨.int last, _, _⟩] => .ok (Value.string (replaceBetween s pattern replacement 0 last))
      | [⟨.int first, _, _⟩, ⟨.int last, _, _⟩] =>
          .ok (Value.string (replaceBetween s pattern replacement first last))
      | [_] => .error (str "Bad argument 4 to replace_string() (expected int)")
      | [⟨.int _, _, _⟩, _] =>
          .error (str "Bad argument 5 to replace_string() (expected int)")
      | [_, _] => .error (str "Bad argument 4 to replace_string() (expected int)")
      | _ => .error (str ("replace_string: expected (string str, string pattern, " ++
          "string replacement [, int first [, int last]])"))
  | _, _, _ => .error (str ("replace_string: expected (string str, string pattern, " ++
      "string replacement [, int first [, int last]])"))

/-! ## Splitting -/

variable {sep : Str} {nonempty : sep ≠ []}

/-- All fields but the last, and then what is made of the last. -/
theorem splitLoop_eq (ending : Str → List Str) (rest : Str) (items : List Str) :
    splitLoop sep nonempty ending rest items =
      items ++ ((fields sep nonempty rest).dropLast ++
        ending ((fields sep nonempty rest).getLast Drain.fields_ne_nil)) := by
  induction rest using Drain.fields_induction sep nonempty generalizing items with
  | last rest none_ =>
      rw [splitLoop, none_]
      simp [Drain.fields_of_none none_]
  | field rest before after cut ih =>
      have more : fields sep nonempty after ≠ [] := Drain.fields_ne_nil
      rw [splitLoop, cut]
      simp only [ih, Drain.fields_of_cut cut, List.dropLast_cons_of_ne_nil more,
        List.getLast_cons more]
      simp

/-- The reversible loop keeps every field. -/
theorem splitLoop_all (s : Str) :
    splitLoop sep nonempty (fun rest => [rest]) s [] = fields sep nonempty s := by
  rw [splitLoop_eq, List.nil_append, List.dropLast_append_getLast]

/-- A last field that is empty is removed. -/
def trimmed (texts : List Str) : List Str :=
  if texts.getLast? = some [] then texts.dropLast else texts

/-- The other loop drops a last field that is empty. -/
theorem splitLoop_trimmed (s : Str) :
    splitLoop sep nonempty (fun rest => if rest = [] then [] else [rest]) s [] =
      trimmed (fields sep nonempty s) := by
  have last := List.getLast?_eq_some_getLast (l := fields sep nonempty s) Drain.fields_ne_nil
  rw [splitLoop_eq, List.nil_append, trimmed, last]
  by_cases empty : (fields sep nonempty s).getLast Drain.fields_ne_nil = []
  · rw [if_pos empty, if_pos (congrArg some empty), List.append_nil]
  · rw [if_neg empty, if_neg (fun same => empty (Option.some.inj same)),
      List.dropLast_append_getLast]

/-- Without the separators at the front, the fields start where one is not empty. -/
theorem skipLeading_eq (s : Str) :
    trimmed ((fields sep nonempty s).dropWhile (· = [])) =
      match skipLeading sep nonempty s with
      | none => []
      | some rest => trimmed (fields sep nonempty rest) := by
  fun_induction skipLeading sep nonempty s with
  | case1 rest starts nothing =>
      have cut := Drain.cutAt_of_prefix nonempty starts
      rw [Drain.fields_of_cut cut, nothing, Drain.fields_of_none rfl]
      rfl
  | case2 rest starts more ih =>
      have cut := Drain.cutAt_of_prefix nonempty starts
      rw [Drain.fields_of_cut cut, List.dropWhile_cons_of_pos (by simp), ih]
  | case3 rest starts =>
      dsimp only
      cases cut : cutAt sep rest with
      | none =>
          rw [Drain.fields_of_none cut]
          by_cases nothing : rest = [] <;> simp [nothing, trimmed]
      | some pieces =>
          have filled := Drain.ne_nil_of_cutAt starts cut
          rw [Drain.fields_of_cut cut, List.dropWhile_cons_of_neg (by simpa using filled)]

/-! ## Joining and replacing -/

theorem implodeLoop_strings (sep : Str) (texts : List Str) (result : Str) :
    implodeLoop sep (texts.map Value.string) result true =
      sep.intercalate (result :: texts) := by
  induction texts generalizing result with
  | nil => rw [List.intercalate_singleton]; rfl
  | cons text texts ih =>
      have step : implodeLoop sep ((text :: texts).map Value.string) result true =
          implodeLoop sep (texts.map Value.string) (result ++ sep ++ text) true := rfl
      rw [step, ih, List.intercalate_cons_cons]
      cases texts with
      | nil => simp
      | cons next texts => simp

/-- An array of strings is joined. -/
theorem implodeLoop_eq (sep : Str) (texts : List Str) :
    implodeLoop sep (texts.map Value.string) [] false = sep.intercalate texts := by
  cases texts with
  | nil => rfl
  | cons text texts => exact implodeLoop_strings sep texts text

/-- The text that stands for an occurrence. -/
def replaced (pattern replacement : Str) (first last : Int64) (number : Nat) : Str :=
  if first.toInt ≤ number ∧ (last = 0 ∨ (number : Int) ≤ last.toInt) then replacement
  else pattern

/-- The loop replaces by the number of the occurrence. -/
theorem replaceLoop_eq (replacement : Str) (first last : Int64) (rest : Str) {cur : Nat}
    (result : Str) (before : last = 0 ∨ (cur : Int) < last.toInt) :
    replaceLoop sep nonempty replacement first last rest cur result =
      result ++ joinNumbered (replaced sep replacement first last) (cur + 1)
        (fields sep nonempty rest) := by
  induction rest using Drain.fields_induction sep nonempty generalizing cur result with
  | last rest none_ =>
      rw [replaceLoop, none_, Drain.fields_of_none none_]
      rfl
  | field rest head after cut ih =>
      rw [replaceLoop, cut, Drain.fields_of_cut cut, Drain.joinNumbered_cons Drain.fields_ne_nil]
      have same : (if first.toInt ≤ ((cur + 1 : Nat) : Int) ∧
          (last = 0 ∨ ((cur + 1 : Nat) : Int) ≤ last.toInt) then replacement else sep) =
          replaced sep replacement first last (cur + 1) := rfl
      simp only [same]
      by_cases done : last ≠ 0 ∧ ((cur + 1 : Nat) : Int) = last.toInt
      · -- the numbers behind the last one are out of range
        have kept : ∀ i, cur + 1 + 1 ≤ i → replaced sep replacement first last i = sep := by
          intro i later
          unfold replaced
          rw [if_neg]
          rintro ⟨_, zero | small⟩
          · exact done.1 zero
          · omega
        rw [if_pos done, Drain.joinNumbered_congr kept, Drain.joinNumbered_const,
          Drain.intercalate_fields]
        simp
      · have onward : last = 0 ∨ ((cur + 1 : Nat) : Int) < last.toInt := by
          rcases before with zero | below
          · exact .inl zero
          · by_cases zero : last = 0
            · exact .inl zero
            · have other : ((cur + 1 : Nat) : Int) ≠ last.toInt :=
                fun same => done ⟨zero, same⟩
              exact .inr (by omega)
        rw [if_neg done, ih _ onward]
        simp

/-! ## How they agree -/

theorem explodeReversible_eq (w : World) (s : Str) (nonempty : sep ≠ []) :
    explodeReversible w [Value.string s, Value.string sep] =
      .ok (newStrings w (fields sep nonempty s)) := by
  have call : explodeReversible w [Value.string s, Value.string sep] =
      if nonempty : sep = [] then
        .error (str "explode_reversible: delimiter must be non-empty")
      else .ok (newStrings w (splitLoop sep nonempty (fun rest => [rest]) s [])) := rfl
  rw [call, dif_neg nonempty, splitLoop_all]

theorem explode_eq (w : World) (s : Str) (nonempty : sep ≠ []) :
    explode w [Value.string s, Value.string sep] =
      .ok (newStrings w (trimmed ((fields sep nonempty s).dropWhile (· = [])))) := by
  have call : explode w [Value.string s, Value.string sep] =
      if nonempty : sep = [] then .ok (newStrings w [s])
      else
        match skipLeading sep nonempty s with
        | none => .ok (newStrings w [])
        | some rest =>
            .ok (newStrings w (splitLoop sep nonempty
              (fun rest => if rest = [] then [] else [rest]) rest [])) := rfl
  rw [call, dif_neg nonempty, skipLeading_eq]
  cases skipLeading sep nonempty s with
  | none => rfl
  | some rest => simp only [splitLoop_trimmed]

/-- A new array of strings is joined. -/
theorem implode_newStrings (w : World) (texts : List Str) (sep : Str) :
    implode (newStrings w texts).1 [(newStrings w texts).2, Value.string sep] =
      some (.ok (Value.string (sep.intercalate texts))) := by
  have items : (newStrings w texts).1.array w.arrays.length = texts.map Value.string := by
    simp [newStrings, World.newArray, World.array]
  rw [← implodeLoop_eq, ← items]
  rfl

theorem replaceBetween_eq (s replacement : Str) {first last : Int64} (nonempty : sep ≠ [])
    (range : last = 0 ∨ 1 ≤ first ∧ first ≤ last) :
    replaceBetween s sep replacement first last =
      joinNumbered (replaced sep replacement first last) 1 (fields sep nonempty s) := by
  have ordered : ¬ (last ≠ 0 ∧ last < first) := by
    rintro ⟨some_, below⟩
    rcases range with zero | ⟨_, above⟩
    · exact some_ zero
    · rw [Int64.le_iff_toInt_le] at above
      rw [Int64.lt_iff_toInt_lt] at below
      omega
  have before : last = 0 ∨ ((0 : Nat) : Int) < last.toInt := by
    rcases range with zero | ⟨positive, above⟩
    · exact .inl zero
    · rw [Int64.le_iff_toInt_le] at positive above
      have one : (1 : Int64).toInt = 1 := rfl
      exact .inr (by omega)
  rw [replaceBetween, if_neg ordered, dif_neg nonempty, replaceLoop_eq _ _ _ _ _ before]
  rfl

/-- Splitting, joining and replacing agree on the fields of a string. -/
structure Agrees (w : World) (s r d : Str) (texts : List Str) : Prop where
  /-- The string is cut at every separator, from left to right. -/
  cut : ∀ nonempty, texts = fields d nonempty s
  split : explodeReversible w [Value.string s, Value.string d] = .ok (newStrings w texts)
  joined : implode (newStrings w texts).1 [(newStrings w texts).2, Value.string d] =
    some (.ok (Value.string s))
  replaced : some (replaceString [Value.string s, Value.string d, Value.string r]) =
    implode (newStrings w texts).1 [(newStrings w texts).2, Value.string r]
  exploded : explode w [Value.string s, Value.string d] =
    .ok (newStrings w (trimmed (texts.dropWhile (· = []))))
  /-- Only the occurrences in the range. -/
  ranged : ∀ first last : Int64, 1 ≤ first → first ≤ last →
    replaceString [Value.string s, Value.string d, Value.string r, Value.int first,
        Value.int last] =
      .ok (Value.string (joinNumbered
        (fun number => if first.toInt ≤ number ∧ number ≤ last.toInt then r else d) 1 texts))

theorem explode_law (w : World) (s r d : Str) (nonempty : d ≠ []) :
    ∃ texts : List Str, Agrees w s r d texts := by
  refine ⟨fields d nonempty s, fun _ => rfl, explodeReversible_eq w s nonempty, ?_, ?_,
    explode_eq w s nonempty, fun first last positive above => ?_⟩
  · rw [implode_newStrings, Drain.intercalate_fields]
  · have all : ∀ number, 1 ≤ number → replaced d r 0 0 number = r :=
      fun number _ => if_pos ⟨Int.natCast_nonneg number, .inl rfl⟩
    have call : replaceString [Value.string s, Value.string d, Value.string r] =
        .ok (Value.string (replaceBetween s d r 0 0)) := rfl
    rw [implode_newStrings, call, replaceBetween_eq s r nonempty (.inl rfl),
      Drain.joinNumbered_congr all, Drain.joinNumbered_const]
  · have call : replaceString [Value.string s, Value.string d, Value.string r,
          Value.int first, Value.int last] =
        .ok (Value.string (replaceBetween s d r first last)) := rfl
    have some_ : last ≠ 0 := by
      rintro rfl
      rw [Int64.le_iff_toInt_le] at positive above
      have one : (1 : Int64).toInt = 1 := rfl
      have zero : (0 : Int64).toInt = 0 := rfl
      omega
    have same : replaced d r first last =
        fun number : Nat => if first.toInt ≤ number ∧ number ≤ last.toInt then r else d := by
      funext number
      simp only [replaced, some_, false_or]
    rw [call, replaceBetween_eq s r nonempty (.inr ⟨positive, above⟩), same]

/-- The world in which a separator that overlaps itself is looked for. -/
def freshWorld : World :=
  {}

theorem explode_law_overlapping :
    str "aa" ≠ [] ∧ ∃ texts, Agrees freshWorld (str "aaa") (str "b") (str "aa") texts :=
  ⟨by decide, explode_law freshWorld (str "aaa") (str "b") (str "aa") (by decide)⟩

end Kjdmud.Efun.Explode
