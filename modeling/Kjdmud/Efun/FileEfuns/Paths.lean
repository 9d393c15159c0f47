import Kjdmud.Efun.FileEfuns
import Kjdmud.Efun.ValidPath.Soundness

/-!
# The paths of the file efuns

A path inside the mudlib stays inside when an entry of a directory is put behind it or its last
component is taken away, so what passes the gate stays inside.  The name of a save file is
built after the argument, and is legal where the argument is plain.
-/

namespace Kjdmud.Efun

/-! ## Inside the mudlib -/

/-- Behind the root, no component of what the operating system reads is `..`. -/
def Inside (mudlibRoot path : Str) : Prop :=
  ∃ behind, path = mudlibRoot ++ behind ∧ parentDir ∉ components (cString behind)

theorem inside_append_iff {mudlibRoot behind : Str} :
    Inside mudlibRoot (mudlibRoot ++ behind) ↔ parentDir ∉ components (cString behind) := by
  constructor
  · rintro ⟨behind', same, clean⟩
    rwa [List.append_cancel_left same]
  · intro clean
    exact ⟨behind, rfl, clean⟩

theorem components_append (before behind : Str) :
    components (before ++ slash :: behind) = components before ++ components behind := by
  induction before with
  | nil => rw [List.nil_append, components_slash, components_nil, List.singleton_append]
  | cons c before ih =>
      rw [List.cons_append]
      by_cases cut : c = slash
      · rw [cut, components_slash, components_slash, ih, List.cons_append]
      · rcases exists_components_cons before cut with ⟨first, others, parts, whole⟩
        rw [components_cons _ cut, ih, whole, parts]
        rfl

theorem components_of_not_mem {name : Str} (single : slash ∉ name) :
    components name = [name] := by
  induction name with
  | nil => exact components_nil
  | cons c name ih =>
      have uncut : c ≠ slash := fun cut => single (cut ▸ List.mem_cons_self)
      rw [components_cons name uncut, ih (List.not_mem_of_not_mem_cons single)]
      rfl

theorem cString_of_not_mem {s : Str} (clean : 0 ∉ s) : cString s = s := by
  induction s with
  | nil => rfl
  | cons c s ih =>
      have read : c ≠ 0 := fun nul => clean (nul ▸ List.mem_cons_self)
      rw [cString_cons s read, ih (List.not_mem_of_not_mem_cons clean)]

/-- What the operating system reads ends before a NUL in the first part, or in the second. -/
theorem cString_append (before behind : Str) :
    cString (before ++ behind) = cString before ∨
      cString before = before ∧ cString (before ++ behind) = before ++ cString behind := by
  induction before with
  | nil => exact .inr ⟨rfl, rfl⟩
  | cons c before ih =>
      by_cases ended : c = 0
      · exact .inl (by rw [ended]; rfl)
      · rw [List.cons_append, cString_cons _ ended, cString_cons _ ended]
        rcases ih with stopped | ⟨whole, goes⟩
        · exact .inl (by rw [stopped])
        · exact .inr ⟨by rw [whole], by rw [goes, List.cons_append]⟩

theorem Inside.entry {mudlibRoot path name : Str} (inside : Inside mudlibRoot path)
    (single : slash ∉ name) (clean : 0 ∉ name) (other : name ≠ parentDir) :
    Inside mudlibRoot (path ++ slash :: name) := by
  rcases inside with ⟨behind, rfl, confined⟩
  rw [List.append_assoc, inside_append_iff]
  rcases cString_append behind (slash :: name) with stopped | ⟨whole, goes⟩
  · rwa [stopped]
  · rw [goes, cString_cons _ (by decide), cString_of_not_mem clean, components_append,
      components_of_not_mem single]
    rw [whole] at confined
    exact fun member => (List.mem_append.mp member).elim confined fun last =>
      other (List.mem_singleton.mp last).symm

theorem Inside.directory {mudlibRoot before last : Str}
    (inside : Inside mudlibRoot (mudlibRoot ++ (before ++ slash :: last))) :
    Inside mudlibRoot (mudlibRoot ++ before) := by
  rw [inside_append_iff] at inside ⊢
  rcases cString_append before (slash :: last) with stopped | ⟨whole, goes⟩
  · rwa [stopped] at inside
  · rw [goes, cString_cons _ (by decide), components_append] at inside
    rw [whole]
    exact fun member => inside (List.mem_append_left _ member)

/-! ## The last component -/

/-- A path with a slash, cut at the last one. -/
theorem exists_last_slash {s : Str} (cut : slash ∈ s) :
    ∃ before last, s = before ++ slash :: last ∧ slash ∉ last := by
  induction s with
  | nil => cases cut
  | cons c rest ih =>
      by_cases later : slash ∈ rest
      · rcases ih later with ⟨before, last, rfl, single⟩
        exact ⟨c :: before, last, rfl, single⟩
      · rcases List.mem_cons.mp cut with first | member
        · exact ⟨[], rest, by rw [← first]; rfl, later⟩
        · exact absurd member later

theorem FileDriver.splitLast_eq {before last : Str} (single : slash ∉ last) :
    FileDriver.splitLast (before ++ slash :: last) = (before, last) := by
  have stops : ((before ++ slash :: last).reverse.takeWhile (· ≠ slash)).reverse = last := by
    rw [List.reverse_append, List.reverse_cons, List.append_assoc,
      List.takeWhile_append_of_pos]
    · rw [List.singleton_append, List.takeWhile_cons_of_neg (by simp), List.append_nil,
        List.reverse_reverse]
    · intro c member
      have uncut : c ≠ slash := fun cut => single (cut ▸ List.mem_reverse.mp member)
      simpa using uncut
  unfold FileDriver.splitLast
  rw [stops, if_pos (List.mem_append_right _ List.mem_cons_self)]
  have length : (before ++ slash :: last).length - last.length - 1 = before.length := by
    rw [List.length_append, List.length_cons]
    omega
  rw [length, List.take_left]

/-- The directory of a resolved path lies inside where the path does. -/
theorem inside_dirPart {mudlibRoot p : Str}
    (inside : Inside mudlibRoot (resolveMudlibPath mudlibRoot p)) :
    Inside mudlibRoot (FileDriver.splitLast (resolveMudlibPath mudlibRoot p)).1 := by
  have cut : slash ∈ normalized p := by
    rw [normalized_eq]
    exact List.mem_cons_self
  rcases exists_last_slash cut with ⟨before, last, parts, single⟩
  unfold resolveMudlibPath at inside ⊢
  rw [parts] at inside ⊢
  rw [← List.append_assoc, FileDriver.splitLast_eq single]
  exact inside.directory

/-! ## The root and plain paths -/

/-- A path that is to be served: the root of the mudlib, or a plain path. -/
def Usual (path : Str) : Prop :=
  path = [slash] ∨ Plain path

/-- In FluffOS the gate leaves the root out. -/
theorem not_legal_root {gate : Gate} (fluffos : gate.ldmud = false) :
    gate.legal (checkPath [slash]) = false := by
  rw [Gate.legal, fluffos]
  rfl

theorem legal_root {gate : Gate} (ldmud : gate.ldmud = true) :
    gate.legal (checkPath [slash]) = true := by
  rw [Gate.legal, if_pos ldmud]
  exact scanLdmud_of_plain rfl fun _ => by decide

theorem legal_of_usual {gate : Gate} {path : Str} (usual : Usual path)
    (served : gate.ldmud = true ∨ path ≠ [slash]) : gate.legal (checkPath path) = true := by
  rcases usual with root | plain
  · rcases served with ldmud | other
    · rw [root]
      exact legal_root ldmud
    · exact absurd root other
  · exact legal_of_plain plain

/-! ## Save files -/

/-- What is put behind a path without a slash goes to the last component. -/
theorem components_append_suffix (path suffix : Str) (single : slash ∉ suffix) :
    ∃ others last, components path = others ++ [last] ∧
      components (path ++ suffix) = others ++ [last ++ suffix] := by
  by_cases cut : slash ∈ path
  · rcases exists_last_slash cut with ⟨before, last, rfl, inner⟩
    have joined : slash ∉ last ++ suffix := fun member =>
      (List.mem_append.mp member).elim inner single
    refine ⟨components before, last, ?_, ?_⟩
    · rw [components_append, components_of_not_mem inner]
    · rw [List.append_assoc, List.cons_append, components_append,
        components_of_not_mem joined]
  · have joined : slash ∉ path ++ suffix := fun member =>
      (List.mem_append.mp member).elim cut single
    exact ⟨[], path, components_of_not_mem cut, components_of_not_mem joined⟩

/-- Whether the components are plain does not depend on an extension. -/
theorem plainComponents_extension {path : Str} {c : UInt8} (other : c ≠ slash) :
    PlainComponents (path ++ [dot, c]) ↔ PlainComponents path := by
  have single : slash ∉ [dot, c] := by
    simpa using ⟨show slash ≠ dot by decide, other.symm⟩
  rcases components_append_suffix path [dot, c] single with ⟨others, last, parts, extended⟩
  unfold PlainComponents
  rw [parts, extended]
  simp only [List.mem_append, List.mem_singleton]
  have lasts : last ++ [dot, c] ≠ [] ∧ (last ++ [dot, c]).head? ≠ some dot ↔
      last ≠ [] ∧ last.head? ≠ some dot := by
    cases last with
    | nil => simp
    | cons b last => simp
  constructor
  · rintro plain part (inner | rfl)
    · exact plain part (.inl inner)
    · exact lasts.mp (plain _ (.inr rfl))
  · rintro plain part (inner | rfl)
    · exact plain part (.inl inner)
    · exact lasts.mpr (plain _ (.inr rfl))

/-- Nor does whether the path is plain, for an extension of usual bytes. -/
theorem plain_extension {path : Str} {c : UInt8} (other : c ≠ slash) (unhashed : c ≠ 0x23)
    (unspaced : c ≠ 0x20) : Plain (path ++ [dot, c]) ↔ Plain path := by
  have hashless : 0x23 ∉ path ++ [dot, c] ↔ 0x23 ∉ path := by
    simp [dot, Ne.symm unhashed]
  have spaceless : 0x20 ∉ path ++ [dot, c] ↔ 0x20 ∉ path := by
    simp [dot, Ne.symm unspaced]
  constructor
  · rintro ⟨⟨relative, same | same, parts⟩, noHash, noSpace⟩
    · refine ⟨⟨path, .inl rfl, ?_⟩, hashless.mp noHash, spaceless.mp noSpace⟩
      rwa [← plainComponents_extension other, same]
    · cases path with
      | nil => cases same
      | cons b path =>
          rw [List.cons_append, List.cons.injEq] at same
          refine ⟨⟨path, .inr (by rw [same.1]), ?_⟩, hashless.mp noHash, spaceless.mp noSpace⟩
          rwa [← plainComponents_extension other, same.2]
  · rintro ⟨⟨relative, rfl | rfl, parts⟩, noHash, noSpace⟩
    · exact ⟨⟨_, .inl rfl, (plainComponents_extension other).mpr parts⟩,
        hashless.mpr noHash, spaceless.mpr noSpace⟩
    · exact ⟨⟨_, .inr rfl, (plainComponents_extension other).mpr parts⟩,
        hashless.mpr noHash, spaceless.mpr noSpace⟩

/-- The name of a save file is plain where the argument is. -/
theorem plain_normalizeSavePath {path : Str} (plain : Plain path) :
    Plain (normalizeSavePath path) := by
  have strip : ∀ (c : UInt8) (p : Str), c ≠ slash → c ≠ 0x23 → c ≠ 0x20 → Plain p →
      Plain (if [dot, c].isSuffixOf p then p.take (p.length - [dot, c].length) else p) := by
    intro c p other unhashed unspaced plain
    split
    · rename_i ends
      rcases List.isSuffixOf_iff_suffix.mp ends with ⟨stem, rfl⟩
      rw [List.length_append, Nat.add_sub_cancel, List.take_left]
      exact (plain_extension other unhashed unspaced).mp plain
    · exact plain
  apply (plain_extension (c := 0x6f) (by decide) (by decide) (by decide)).mpr
  apply strip 0x6f _ (by decide) (by decide) (by decide)
  exact strip 0x63 _ (by decide) (by decide) (by decide) plain

/-- The name of a save file is legal for a usual argument; the root becomes `/.o`. -/
theorem legal_normalizeSavePath {gate : Gate} {path : Str} (usual : Usual path) :
    gate.legal (checkPath (normalizeSavePath path)) = true := by
  rcases usual with rfl | plain
  · have hidden : checkPath (normalizeSavePath [slash]) = str ".o" := by decide
    rw [hidden, Gate.legal]
    split
    · rw [legalPathLdmud, if_neg (by decide), if_neg (by decide)]
      simp [scanLdmud, findDot, str, byteAt, dot]
    · rw [legalPathFluffos, if_neg (by decide), if_neg (by decide), if_neg (by decide)]
      simp [scanFluffos, findSlashDot, skipDot, str, byteAt, dot, slash]
  · exact legal_of_plain (plain_normalizeSavePath plain)

end Kjdmud.Efun
