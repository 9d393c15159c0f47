import Kjdmud.Vm.Sscanf

/-!
# Formats of text, `%%` and `%s`

The formats that `runSscanf` splits without conversions: literal bytes, `%%`,
and `%s` with or without the star that skips the assignment.  The section
`What a scan leaves` states what such a scan means: the texts it found, put in
the place of the specifiers, give back the input it consumed.
-/

namespace Kjdmud.Vm

/-! ## The pieces of a format -/

/-- One piece of a format. -/
inductive FormatPiece
  /-- A byte of literal text. -/
  | byte (c : UInt8) (plain : c ≠ percent)
  /-- `%%`. -/
  | percent
  /-- `%s`, or `%*s` when the match is skipped. -/
  | string (skip : Bool)

/-- The text of a piece in a format string. -/
def FormatPiece.text : FormatPiece → Str
  | .byte c _ => [c]
  | .percent => [Vm.percent, Vm.percent]
  | .string false => [Vm.percent, Vm.byte 's']
  | .string true => [Vm.percent, star, Vm.byte 's']

/-- The format string of a list of pieces. -/
def formatOf : List FormatPiece → Str
  | [] => []
  | piece :: pieces => piece.text ++ formatOf pieces

/-- No two `%s` stand next to each other. -/
def Separated : List FormatPiece → Prop
  | .string _ :: .string _ :: _ => False
  | _ :: pieces => Separated pieces
  | [] => True

/-- The literal text a `%s` in front of these pieces runs up to: a run of bytes,
or the percent sign of `%%`. -/
def nextLiteral : List FormatPiece → Str
  | .percent :: _ => [percent]
  | pieces => literalRun pieces
where
  /-- The bytes of literal text at the front of the pieces. -/
  literalRun : List FormatPiece → Str
    | .byte c _ :: pieces => c :: literalRun pieces
    | _ => []

theorem Separated.tail {piece : FormatPiece} {pieces : List FormatPiece}
    (separated : Separated (piece :: pieces)) : Separated pieces := by
  cases piece with
  | byte c plain => exact separated
  | percent => exact separated
  | string skip =>
      cases pieces with
      | nil => trivial
      | cons next pieces =>
          cases next with
          | byte c plain => exact separated
          | percent => exact separated
          | string skip' => exact absurd separated (by simp [Separated])

/-! ## What a scan leaves -/

/-- The pieces with each `%s` replaced by its text and `%%` by a percent sign. -/
def fill : List FormatPiece → List Str → Str
  | [], _ => []
  | .byte c _ :: pieces, texts => c :: fill pieces texts
  | .percent :: pieces, texts => percent :: fill pieces texts
  | .string _ :: pieces, text :: texts => text ++ fill pieces texts
  | .string _ :: pieces, [] => fill pieces []

/-- The number of `%s` among the pieces. -/
def strings : List FormatPiece → Nat
  | [] => 0
  | .byte _ _ :: pieces => strings pieces
  | .percent :: pieces => strings pieces
  | .string _ :: pieces => strings pieces + 1

/-- The number of `%s` and `%%` among the pieces. -/
def specifiers : List FormatPiece → Nat
  | [] => 0
  | .byte _ _ :: pieces => specifiers pieces
  | .percent :: pieces => specifiers pieces + 1
  | .string _ :: pieces => specifiers pieces + 1

/-- The texts of the `%s` that are not skipped. -/
def unskipped : List FormatPiece → List Str → List Str
  | [], _ => []
  | .byte _ _ :: pieces, texts => unskipped pieces texts
  | .percent :: pieces, texts => unskipped pieces texts
  | .string skip :: pieces, text :: texts =>
      (if skip then [] else [text]) ++ unskipped pieces texts
  | .string _ :: pieces, [] => unskipped pieces []

/-- A text in front of `after` is as short as possible up to the literal text
of the pieces that follow: that literal text does not start inside it. -/
def Shortest (text after : Str) (following : List FormatPiece) : Prop :=
  following = [] ∨ ∀ k < text.length, ¬ nextLiteral following <+: (text ++ after).drop k

/-- Every text is as short as possible.  `left` are the pieces behind the
matched ones and `rest` the input behind the texts. -/
def AllShortest (left : List FormatPiece) (rest : Str) :
    List FormatPiece → List Str → Prop
  | [], _ => True
  | .byte _ _ :: pieces, texts => AllShortest left rest pieces texts
  | .percent :: pieces, texts => AllShortest left rest pieces texts
  | .string _ :: pieces, text :: texts =>
      Shortest text (fill pieces texts ++ rest) (pieces ++ left) ∧
        AllShortest left rest pieces texts
  | .string _ :: pieces, [] => AllShortest left rest pieces []

/-- The next piece does not match the rest of the input. -/
def Stuck : List FormatPiece → Str → Prop
  | [], _ => True
  | .byte c _ :: _, rest => rest.head? ≠ some c
  | .percent :: _, rest => rest.head? ≠ some percent
  | .string _ :: pieces, rest => ∀ k, ¬ nextLiteral pieces <+: rest.drop k

/-- The text that goes to an output still free behind `assigned` values when
the format ends before the input does. -/
def leftover (maxAssigns assigned : Nat) : List FormatPiece → Str → List Str
  | [], rest => if rest ≠ [] ∧ assigned < maxAssigns then [rest] else []
  | _ :: _, _ => []

/-- What a scan of `pieces` over `input` says of itself: it matched the pieces
before `left` with `texts`, stopped in front of `rest`, and returned `final`. -/
structure Scanned (maxAssigns : Nat) (pieces : List FormatPiece) (input : Str)
    (matched left : List FormatPiece) (texts : List Str) (rest : Str)
    (final : SscanfOutcome) : Prop where
  split : pieces = matched ++ left
  texts_length : texts.length = strings matched
  filled : input = fill matched texts ++ rest
  shortest : AllShortest left rest matched texts
  stuck : Stuck left rest
  assigned : final.assigned =
    (unskipped matched texts ++
      leftover maxAssigns (unskipped matched texts).length left rest).map Value.string
  matchCount : final.matchCount = specifiers matched +
    (leftover maxAssigns (unskipped matched texts).length left rest).length
  bounded : final.assigned.length ≤ maxAssigns

end Kjdmud.Vm
