import Kjdmud.Efun.SaveObject.Legacy
import Kjdmud.Lib.Checked
import Kjdmud.Persist.StateSerializer

/-!
# The checks of a dump

Every function that reads a part of a dump has a check, which works with positions alone.
It tells where the function throws, where its position moves back, and where it goes on.
-/

namespace Kjdmud.Persist

open Decoded Tagged
open SaveVariable (colon semicolon)
open Conversion (stoll stoull stod ConversionError)
open Efun (RestoreError convert maxValues maxEntries)

/-- Whatever is thrown, `restoreState` ends. -/
def anyError (_ : RestoreError) : Bool := true

/-! ## Checks -/

section Check

variable {α : Type}

/-- `readField`: where the delimiter is missing the next position is 0. -/
def checkField (conversion : Str → Except ConversionError α) (delim : UInt8) (s : Str)
    (pos : Nat) : Checked α :=
  if s.length < pos then .refuses
  else
    match conversion (upTo s pos (findFrom s delim pos)), findFrom s delim pos with
    | .error _, _ => .refuses
    | .ok _, none => .breaks
    | .ok a, some stop => .goesOn a (stop + 1)

/-- `readPresent`. -/
def checkPresent (conversion : Str → Except ConversionError α) (delim : UInt8) (s : Str)
    (pos : Nat) : Checked α :=
  match findFrom s delim pos with
  | none => .refuses
  | some stop =>
      match conversion (upTo s pos (some stop)) with
      | .error _ => .refuses
      | .ok a => .goesOn a (stop + 1)

/-- A limit of what was read. -/
def atMost (limit : Nat) (count : Nat) (a : α) (pos : Nat) : Checked α :=
  if limit < count then .refuses else .goesOn a pos

/-- A position that moves on by a length, which can wrap. -/
def skip (a : α) (length pos : Nat) : Checked α :=
  if (pos + length) % 2 ^ 64 < pos then .breaks else .goesOn a ((pos + length) % 2 ^ 64)

end Check

/-- `readCount`. -/
def checkCount (limit : Nat) (delim : UInt8) (s : Str) (pos : Nat) : Checked Nat :=
  (checkField stoull delim s pos).andThen fun count pos => atMost limit count count pos

/-- A string: its length, its bytes and the position behind them. -/
def checkString (s : Str) (pos : Nat) : Checked Str :=
  let stop := findFrom s colon pos
  match stoull (upTo s pos stop) with
  | .error _ => .refuses
  | .ok length =>
      if (behind stop + length) % 2 ^ 64 < pos then .breaks
      else .goesOn ((s.drop (behind stop)).take length) ((behind stop + length) % 2 ^ 64)

/-- `readWidth`. -/
def checkWidth (s : Str) (pos : Nat) : Checked Nat :=
  (checkPresent stoll colon s pos).andThen fun width pos => .goesOn (castWidth width) pos

/-- `readShape`. -/
def checkShape (s : Str) (pos : Nat) : Checked (Nat × Nat) :=
  match findFirstOf s [colon, 0x77] pos with
  | none => .refuses
  | some sep =>
      match stoull (upTo s pos (some sep)) with
      | .error _ => .refuses
      | .ok count =>
          (if s[sep]? = some 0x77 then
            (checkWidth s (sep + 1)).andThen fun width pos => .goesOn (count, width) pos
          else .goesOn (count, 1) (sep + 1)).andThen fun shape pos =>
            atMost maxEntries shape.1 shape pos

/-- `readClosureHead`. -/
def checkClosureHead (s : Str) (pos : Nat) : Checked ClosureHead :=
  (checkField stoll semicolon s pos).andThen fun ownerId pos =>
    (checkField (fun flag => .ok (flag == str "1")) semicolon s pos).andThen fun forceEfun pos =>
      (checkField stoull colon s pos).andThen fun nameLen pos =>
        (skip ((s.drop pos).take nameLen) nameLen pos).andThen fun functionName pos =>
          (checkCount maxValues semicolon s pos).andThen fun argCount pos =>
            .goesOn ⟨ownerId, forceEfun, functionName, argCount⟩ pos

/-- `readInventory`. -/
def checkInventory (s : Str) (pos : Nat) : Checked (List Int64) :=
  (checkPresent stoll semicolon s pos).andThen fun invCount pos =>
    checkPresent (inventoryIds (castSize invCount)) semicolon s pos

/-- `readFilename`. -/
def checkFilename (s : Str) (pos : Nat) : Checked Str :=
  (checkPresent stoull colon s pos).andThen fun fnameLen pos =>
    skip ((s.drop pos).take fnameLen) fnameLen pos

/-- `readPlacement`. -/
def checkPlacement (s : Str) (pos : Nat) : Checked PlacementEntry :=
  (checkPresent stoll semicolon s pos).andThen fun id pos =>
    (checkPresent stoll semicolon s pos).andThen fun isClone pos =>
      (checkPresent stoll semicolon s pos).andThen fun envId pos =>
        (checkInventory s pos).andThen fun invIds pos =>
          (checkFilename s pos).andThen fun filename pos =>
            .goesOn ⟨id, isClone != 0, envId, invIds, filename⟩ pos

/-- `readPlacements`. -/
def checkPlacements (s : Str) (pos : Nat) : Checked (List PlacementEntry) :=
  (checkPresent stoll semicolon s pos).andThen fun count pos =>
    (atMost maxPlacements (castSize count) count pos).andThen fun count pos =>
      Checked.repeatCheck (checkPlacement s) (castSize count) [] pos

/-! ## Tags -/

/-- What the tag at a position of the value section tells. -/
def worldTag (s : Str) (pos : Nat) : Tag :=
  match s[pos]? with
  | none => .refuses
  | some kind =>
      if kind = 0x4e then .moves (pos + 1) 0 0
      else if kind = 0x49 then (checkField stoll semicolon s (pos + 1)).tag fun _ => 0
      else if kind = 0x46 then (checkField stod semicolon s (pos + 1)).tag fun _ => 0
      else if kind = 0x53 then (checkString s (pos + 1)).tag fun _ => 0
      else if kind = 0x41 then (checkCount maxValues colon s (pos + 1)).tag id
      else if kind = 0x4d then
        (checkShape s (pos + 1)).tag fun shape => shape.1 * (2 + (shape.2 - 1))
      else if kind = 0x4f then (checkField stoll semicolon s (pos + 1)).tag fun _ => 0
      else if kind = 0x43 then (checkClosureHead s (pos + 1)).tag ClosureHead.argCount
      else .refuses

/-- The values of a dump; no room is counted. -/
def worldFormat (s : Str) : Format where
  length := s.length
  limit := 0
  tag := worldTag s

/-! ## The readers keep what their cursors have written down -/

section Keeps

variable {α : Type} (s : Str) (c : Cursor)

theorem keeps_convert (converted : Except ConversionError α) : Keeps c (convert converted c) :=
  Efun.keeps_convert converted c

theorem keeps_readField (conversion : Str → Except ConversionError α) (delim : UInt8) :
    Keeps c (readField conversion delim s c) := by
  unfold readField
  split
  · exact keeps_some (.refl c)
  · exact (keeps_convert c _).andThen fun _ c' => keeps_some (.moveTo c' _)

theorem keeps_readPresent (missing : Str) (conversion : Str → Except ConversionError α)
    (delim : UInt8) : Keeps c (readPresent missing conversion delim s c) := by
  unfold readPresent
  split
  · exact keeps_some (.refl c)
  · exact (keeps_convert c _).andThen fun _ c' => keeps_some (.moveTo c' _)

theorem keeps_atMost (limit count : Nat) (a : α) :
    Keeps c (if limit < count then some (.error .lengthError, c) else some (.ok a, c) :
      Decoded RestoreError α) := by
  split <;> exact keeps_some (.refl c)

theorem keeps_readCount (limit : Nat) (delim : UInt8) : Keeps c (readCount limit delim s c) :=
  (keeps_readField s c stoull delim).andThen fun count c' => keeps_atMost c' limit count count

theorem keeps_readWidth : Keeps c (readWidth s c) :=
  (keeps_readPresent s c _ stoll colon).andThen fun _ c' => keeps_some (.refl c')

theorem keeps_readShape : Keeps c (readShape s c) := by
  unfold readShape
  split
  · exact keeps_some (.refl c)
  · rename_i sep _
    refine (keeps_convert c _).andThen fun count c' => ?_
    refine Keeps.andThen ?_ fun shape c' => keeps_atMost c' maxEntries shape.1 shape
    refine Keeps.of_leads ?_ (Cursor.Leads.moveTo c' (sep + 1))
    split
    · exact (keeps_readWidth s _).andThen fun _ c'' => keeps_some (.refl c'')
    · exact keeps_some (.refl _)

theorem keeps_readClosureHead : Keeps c (readClosureHead s c) := by
  refine (keeps_readField s c stoll semicolon).andThen fun ownerId c₁ => ?_
  refine (keeps_readField s c₁ _ semicolon).andThen fun forceEfun c₂ => ?_
  refine (keeps_readField s c₂ stoull colon).andThen fun nameLen c₃ => ?_
  refine Keeps.of_leads ?_ (.moveTo c₃ ((c₃.pos + nameLen) % 2 ^ 64))
  exact (keeps_readCount s _ maxValues semicolon).andThen fun _ c₄ => keeps_some (.refl c₄)

theorem keeps_readInventory : Keeps c (readInventory s c) := by
  refine (keeps_readPresent s c _ stoll semicolon).andThen fun invCount c' => ?_
  split
  · exact keeps_some (.refl c')
  · exact (keeps_convert _ _).of_leads (.moveTo c' _)

theorem keeps_readFilename : Keeps c (readFilename s c) :=
  (keeps_readPresent s c _ stoull colon).andThen fun _ c' => keeps_some (.moveTo c' _)

theorem keeps_readPlacement : Keeps c (readPlacement s c) := by
  refine (keeps_readPresent s c _ stoll semicolon).andThen fun id c₁ => ?_
  refine (keeps_readPresent s c₁ _ stoll semicolon).andThen fun isClone c₂ => ?_
  refine (keeps_readPresent s c₂ _ stoll semicolon).andThen fun envId c₃ => ?_
  refine (keeps_readInventory s c₃).andThen fun invIds c₄ => ?_
  exact (keeps_readFilename s c₄).andThen fun filename c₅ => keeps_some (.refl c₅)

theorem keeps_readEntry {read : Cursor → Decoded RestoreError WorldValue}
    (keeps : ∀ c, Keeps c (read c)) (width : Nat) : Keeps c (readEntry read width c) :=
  (keeps c).andThen fun _ c₁ => (keeps c₁).andThen fun _ c₂ =>
    (keeps_repeatRead keeps (width - 1) [] c₂).andThen fun _ c₃ => keeps_some (.refl c₃)

theorem keeps_deserializeWorldValue (objects : ObjectOfId) (fuel : Nat) :
    Keeps c (deserializeWorldValue objects s fuel c) := by
  induction fuel generalizing c with
  | zero => exact keeps_none c
  | succ fuel inductionHypothesis =>
      rw [deserializeWorldValue]
      cases s[c.pos]? with
      | none => exact keeps_some (.refl c)
      | some kind =>
          refine Keeps.of_leads ?_ (.moveTo c (c.pos + 1))
          simp only
          split
          · exact keeps_some (.refl _)
          split
          · exact (keeps_readField s _ _ _).andThen fun _ c' => keeps_some (.refl c')
          split
          · exact (keeps_readField s _ _ _).andThen fun _ c' => keeps_some (.refl c')
          split
          · exact (Efun.keeps_deserializeLength s _).andThen fun _ c' => keeps_some (.moveTo c' _)
          split
          · exact (keeps_readCount s _ _ _).andThen fun count c₁ =>
              (keeps_repeatRead inductionHypothesis count [] c₁).andThen
                fun _ c₂ => keeps_some (.refl c₂)
          split
          · exact (keeps_readShape s _).andThen fun shape c₁ =>
              (keeps_repeatRead (fun c => keeps_readEntry c inductionHypothesis shape.2)
                shape.1 [] c₁).andThen fun _ c₂ => keeps_some (.refl c₂)
          split
          · exact (keeps_readField s _ _ _).andThen fun _ c' => keeps_some (.refl c')
          split
          · exact (keeps_readClosureHead s _).andThen fun head c₁ =>
              (keeps_repeatRead inductionHypothesis head.argCount [] c₁).andThen
                fun _ c₂ => keeps_some (.refl c₂)
          · exact keeps_some (.refl _)

end Keeps

end Kjdmud.Persist
