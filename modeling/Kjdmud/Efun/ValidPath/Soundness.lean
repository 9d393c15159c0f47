import Kjdmud.Efun.ValidPath

/-!
# What passes the gate

Both scanners visit every component: a search that resumes at a later position passes over
no component `..`.  A path without a component that begins with a dot is never stopped.
-/

namespace Kjdmud.Efun

open Kjdmud.Vm (Value)

/-! ## The scanner of FluffOS -/

theorem not_parentIn_of_findSlashDot {s : Str} (none_ : findSlashDot s = none) :
    ¬ ParentIn false s := by
  induction s with
  | nil => exact ParentIn.not_nil
  | cons c rest ih =>
      intro found
      rw [findSlashDot] at none_
      split at none_
      · cases none_
      · rename_i other
        have later := found.tail_of_false.2
        by_cases cut : c = slash
        · rw [decide_eq_true cut] at later
          cases later with
          | here ends => exact other ⟨cut, rfl⟩
          | there read behind => exact ih none_ (.there read behind)
        · rw [decide_eq_false cut] at later
          exact ih none_ later

theorem parentIn_findSlashDot {s t : Str} (some_ : findSlashDot s = some t)
    (found : ParentIn false s) : ParentIn true t := by
  induction s with
  | nil => cases some_
  | cons c rest ih =>
      have later := found.tail_of_false.2
      rw [findSlashDot] at some_
      split at some_
      · rename_i here
        cases some_
        rwa [decide_eq_true here.1] at later
      · rename_i other
        by_cases cut : c = slash
        · rw [decide_eq_true cut] at later
          cases later with
          | here ends => exact absurd ⟨cut, rfl⟩ other
          | there read behind => exact ih some_ (.there read behind)
        · rw [decide_eq_false cut] at later
          exact ih some_ later

/-- Skipping a dot passes over no component `..` when the position is not refused. -/
theorem parentIn_skipDot {s : Str}
    (passes : ¬ (byteAt s 0 = dot ∧
      (byteAt (skipDot s) 1 = slash ∨ byteAt (skipDot s) 1 = 0)))
    (found : ParentIn true s) : ParentIn false (skipDot s) := by
  by_cases dots : byteAt s 0 = dot ∧ byteAt s 1 = dot
  · have skipped : skipDot s = s.drop 1 := if_pos dots
    rw [skipped] at passes ⊢
    cases found with
    | here ends => exact absurd ⟨rfl, ends.symm⟩ passes
    | there read later => exact ParentIn.tail_of_dot dots.1 later
  · rw [skipDot, if_neg dots]
    exact found.of_start dots

/-- What `legalPathFluffos` scans to the end has no component `..`. -/
theorem not_parentIn_of_scanFluffos {s : Str} (accepted : scanFluffos s = true) :
    ¬ ParentIn true s := by
  fun_induction scanFluffos s with
  | case1 s last =>
      intro found
      cases found with
      | here ends => cases last.2
      | @there _ _ rest read later =>
          have behind := ParentIn.tail_of_dot last.1 later
          cases rest with
          | nil => exact ParentIn.not_nil behind
          | cons b rest => exact behind.tail_of_false.1 last.2
  | case2 s _ refused => cases accepted
  | case3 s _ passes none_ =>
      intro found
      exact not_parentIn_of_findSlashDot none_ (parentIn_skipDot passes found)
  | case4 s _ passes next some_ ih =>
      intro found
      exact ih accepted (parentIn_findSlashDot some_ (parentIn_skipDot passes found))

theorem not_parentIn_of_legalPathFluffos {path : Str} (legal : legalPathFluffos path = true) :
    ¬ ParentIn true path := by
  unfold legalPathFluffos at legal
  split at legal
  · cases legal
  · split at legal
    · cases legal
    · split at legal
      · cases legal
      · exact not_parentIn_of_scanFluffos legal

/-! ## The scanner of LDMud -/

theorem not_parentIn_of_findDot {start : Bool} {s : Str} (none_ : findDot start s = none) :
    ¬ ParentIn start s := by
  induction s generalizing start with
  | nil => exact ParentIn.not_nil
  | cons c rest ih =>
      intro found
      rw [findDot] at none_
      split at none_
      · cases none_
      · rename_i plain
        exact ih none_ (found.tail_of_ne_dot plain).2

theorem parentIn_findDot {start start' : Bool} {s t : Str}
    (some_ : findDot start s = some (start', t)) (found : ParentIn start s) :
    ParentIn start' t := by
  induction s generalizing start with
  | nil => cases some_
  | cons c rest ih =>
      rw [findDot] at some_
      split at some_
      · cases some_
        exact found
      · rename_i plain
        exact ih some_ (found.tail_of_ne_dot plain).2

/-- The search stops at a dot. -/
theorem findDot_eq_cons {start start' : Bool} {s t : Str}
    (some_ : findDot start s = some (start', t)) : ∃ rest, t = dot :: rest := by
  induction s generalizing start with
  | nil => cases some_
  | cons c rest ih =>
      rw [findDot] at some_
      split at some_
      · rename_i here
        cases some_
        exact ⟨rest, by rw [here]⟩
      · exact ih some_

/-- What `legalPathLdmud` scans to the end has no component `..`. -/
theorem not_parentIn_of_scanLdmud {start : Bool} {s : Str}
    (accepted : scanLdmud start s = true) : ¬ ParentIn start s := by
  fun_induction scanLdmud start s with
  | case1 start s none_ => exact not_parentIn_of_findDot none_
  | case2 start s atComponentStart p some_ single ih =>
      intro found
      have there := parentIn_findDot some_ found
      rcases findDot_eq_cons some_ with ⟨rest, rfl⟩
      cases there with
      | here ends => exact single rfl
      | there read later => exact ih accepted later
  | case3 => cases accepted
  | case4 start s atComponentStart p some_ double inside ih =>
      intro found
      have there := parentIn_findDot some_ found
      rcases findDot_eq_cons some_ with ⟨rest, rfl⟩
      cases there with
      | here ends => exact inside ⟨ends, rfl⟩
      | there read later =>
          cases rest with
          | nil => exact ParentIn.not_nil later
          | cons b rest =>
              have second : b = dot := not_not.mp double
              exact ih accepted (ParentIn.tail_of_dot second later.tail_of_false.2)

theorem not_parentIn_of_legalPathLdmud {path : Str} (legal : legalPathLdmud path = true) :
    ¬ ParentIn true path := by
  unfold legalPathLdmud at legal
  split at legal
  · cases legal
  · split at legal
    · cases legal
    · exact not_parentIn_of_scanLdmud legal

/-! ## The gate -/

theorem normalized_eq (lpcPath : Str) : normalized lpcPath = slash :: checkPath lpcPath := by
  unfold normalized checkPath
  cases lpcPath with
  | nil => rfl
  | cons c rest =>
      by_cases leading : c = slash
      · rw [leading]
        rfl
      · rw [if_neg (by simpa using leading), if_neg (by simpa using leading)]

namespace Gate

theorem not_parentIn_of_legal {gate : Gate} {path : Str} (legal : gate.legal path = true) :
    ¬ ParentIn true path := by
  unfold Gate.legal at legal
  split at legal
  · exact not_parentIn_of_legalPathLdmud legal
  · exact not_parentIn_of_legalPathFluffos legal

/-- What a gate with a master returns was allowed and is legal. -/
theorem legal_of_checkValidPath {gate : Gate} {apply : Str → Bool → Str → Except Str Value}
    {rawPath funcName p : Str} {writeFlag : Bool} (loaded : gate.master = some apply)
    (returned : gate.checkValidPath rawPath writeFlag funcName = .ok (some p)) :
    gate.legal (checkPath p) = true := by
  unfold Gate.checkValidPath at returned
  rw [loaded] at returned
  dsimp only at returned
  split at returned
  · cases returned
  · split at returned
    · cases returned
    · split at returned
      · rename_i legal
        cases returned
        exact legal
      · split at returned
        · cases returned
        · cases returned

/-- A gate returns the path that the master allows when it is legal. -/
theorem checkValidPath_of_legal {gate : Gate} {apply : Str → Bool → Str → Except Str Value}
    {rawPath funcName p : Str} {writeFlag : Bool} {answer : Value}
    (loaded : gate.master = some apply) (answers : apply rawPath writeFlag funcName = .ok answer)
    (allows : allowed answer rawPath = some p) (legal : gate.legal (checkPath p) = true) :
    gate.checkValidPath rawPath writeFlag funcName = .ok (some p) := by
  unfold Gate.checkValidPath
  rw [loaded]
  dsimp only
  rw [answers]
  dsimp only
  rw [allows]
  dsimp only
  rw [if_pos legal]

end Gate

/-! ## Inside the mudlib -/

/-- What the operating system reads behind the root has no component `..`, so no walk over its
components leaves the root. -/
structure Confined (resolved : Str) : Prop where
  parentless : parentDir ∉ components (cString resolved)
  descends : (descend [] (components (cString resolved))).isSome

theorem Confined.of_not_parentIn {path : Str} (clean : ¬ ParentIn true path) :
    Confined (slash :: path) := by
  have confined : parentDir ∉ components (cString (slash :: path)) := by
    intro escapes
    have found := parentIn_of_mem escapes
    cases found with
    | there read later => exact clean later
  exact ⟨confined, descend_isSome confined⟩

theorem confined_of_legal {gate : Gate} {p : Str} (legal : gate.legal (checkPath p) = true) :
    Confined (normalized p) := by
  rw [normalized_eq]
  exact .of_not_parentIn (Gate.not_parentIn_of_legal legal)

/-! ## Plain paths -/

/-- Non-empty components between slashes, none of which begins with a dot. -/
def PlainComponents (s : Str) : Prop :=
  ∀ c ∈ components s, c ≠ [] ∧ c.head? ≠ some dot

instance (s : Str) : Decidable (PlainComponents s) :=
  inferInstanceAs (Decidable (∀ c ∈ components s, c ≠ [] ∧ c.head? ≠ some dot))

/-- A path of plain components, with or without a slash in front, free of `#` and of spaces. -/
structure Plain (path : Str) : Prop where
  parts : ∃ relative, (path = relative ∨ path = slash :: relative) ∧ PlainComponents relative
  hashless : 0x23 ∉ path
  spaceless : 0x20 ∉ path

theorem head_of_plainComponents {s : Str} (plain : PlainComponents s) :
    ∃ c rest, s = c :: rest ∧ c ≠ slash ∧ c ≠ dot := by
  cases s with
  | nil =>
      rw [PlainComponents, components_nil] at plain
      exact absurd rfl (plain [] (List.mem_singleton.mpr rfl)).1
  | cons c rest =>
      refine ⟨c, rest, rfl, ?_, ?_⟩
      · intro cut
        rw [PlainComponents, cut, components_slash] at plain
        exact (plain [] List.mem_cons_self).1 rfl
      · intro first
        rcases exists_components_cons (c := c) rest (by rw [first]; decide) with
          ⟨start, others, -, whole⟩
        rw [PlainComponents, whole] at plain
        exact (plain _ List.mem_cons_self).2 (by rw [first]; rfl)

/-- A path begins with a dot when its first component does. -/
theorem head_components_of_dot {s : Str} (first : s.head? = some dot) :
    ∃ c ∈ components s, c.head? = some dot := by
  cases s with
  | nil => cases first
  | cons c rest =>
      cases first
      rcases exists_components_cons (c := dot) rest (by decide) with ⟨start, others, -, whole⟩
      exact ⟨dot :: start, by rw [whole]; exact List.mem_cons_self, rfl⟩

/-- No `/.` where no later component begins with a dot. -/
theorem findSlashDot_eq_none {s : Str}
    (plain : ∀ c ∈ (components s).tail, c.head? ≠ some dot) : findSlashDot s = none := by
  induction s with
  | nil => rfl
  | cons c rest ih =>
      rw [findSlashDot]
      by_cases cut : c = slash
      · rw [cut, components_slash_tail] at plain
        rw [if_neg]
        · exact ih fun part member => plain part (List.mem_of_mem_tail member)
        · rintro ⟨-, first⟩
          rcases head_components_of_dot first with ⟨part, member, begins⟩
          exact plain part member begins
      · rw [components_cons_tail rest cut] at plain
        rw [if_neg fun both => cut both.1]
        exact ih plain

/-- A search for a dot in a path without `/.` stops inside a component. -/
theorem findDot_inside {start start' : Bool} {s t : Str} (clean : findSlashDot s = none)
    (inner : start = true → s.head? ≠ some dot) (some_ : findDot start s = some (start', t)) :
    start' = false ∧ findSlashDot t = none := by
  induction s generalizing start with
  | nil => cases some_
  | cons c rest ih =>
      rw [findSlashDot] at clean
      split at clean
      · cases clean
      · rename_i other
        rw [findDot] at some_
        split at some_
        · rename_i here
          cases some_
          constructor
          · exact Bool.eq_false_iff.mpr fun set => inner set (by rw [here]; rfl)
          · rw [findSlashDot, if_neg other]
            exact clean
        · exact ih clean (fun cut first => other ⟨of_decide_eq_true cut, first⟩) some_

theorem findSlashDot_drop {s : Str} (clean : findSlashDot s = none) (n : Nat) :
    findSlashDot (s.drop n) = none := by
  induction n generalizing s with
  | zero => exact clean
  | succ n ih =>
      cases s with
      | nil => rfl
      | cons c rest =>
          rw [findSlashDot] at clean
          split at clean
          · cases clean
          · exact ih clean

theorem scanFluffos_of_plain {s : Str} (first : byteAt s 0 ≠ dot)
    (clean : findSlashDot s = none) : scanFluffos s = true := by
  have stays : skipDot s = s := if_neg fun both => first both.1
  unfold scanFluffos
  rw [if_neg fun both => first both.1, if_neg fun both => first both.1]
  split
  · rfl
  · rename_i next found
    rw [stays, clean] at found
    cases found

theorem scanLdmud_of_plain {start : Bool} {s : Str} (clean : findSlashDot s = none)
    (inner : start = true → s.head? ≠ some dot) : scanLdmud start s = true := by
  fun_induction scanLdmud start s with
  | case1 => rfl
  | case2 start s atComponentStart p some_ single ih =>
      rcases findDot_inside clean inner some_ with ⟨-, later⟩
      exact ih (findSlashDot_drop later 1) fun impossible => by cases impossible
  | case3 start s atComponentStart p some_ double ends =>
      rcases findDot_inside clean inner some_ with ⟨inside, -⟩
      exact absurd (inside.symm.trans ends.2) Bool.false_ne_true
  | case4 start s atComponentStart p some_ double inside ih =>
      rcases findDot_inside clean inner some_ with ⟨-, later⟩
      exact ih (findSlashDot_drop later 2) fun impossible => by cases impossible

/-- Both dialects take plain components. -/
theorem legal_of_plainComponents {gate : Gate} {s : Str} (plain : PlainComponents s)
    (hashless : 0x23 ∉ s) (spaceless : 0x20 ∉ s) : gate.legal s = true := by
  rcases head_of_plainComponents plain with ⟨c, rest, rfl, uncut, undotted⟩
  have clean : findSlashDot (c :: rest) = none :=
    findSlashDot_eq_none fun part member => (plain part (List.mem_of_mem_tail member)).2
  have inner : (c :: rest).head? ≠ some dot := by simpa using undotted
  unfold Gate.legal
  split
  · rw [legalPathLdmud, if_neg (by simpa using spaceless),
      if_neg (by rintro ⟨-, leading⟩; exact uncut leading)]
    exact scanLdmud_of_plain clean fun _ => inner
  · have leading : byteAt (c :: rest) 0 ≠ slash := uncut
    rw [legalPathFluffos, if_neg (List.cons_ne_nil c rest), if_neg leading,
      if_neg (by simpa using hashless)]
    exact scanFluffos_of_plain undotted clean

theorem checkPath_of_plain {path : Str} (plain : Plain path) :
    PlainComponents (checkPath path) ∧ 0x23 ∉ checkPath path ∧ 0x20 ∉ checkPath path := by
  rcases plain with ⟨⟨relative, rfl | rfl, parts⟩, hashless, spaceless⟩
  · rcases head_of_plainComponents parts with ⟨c, rest, rfl, uncut, -⟩
    rw [checkPath, if_neg (by simpa using uncut)]
    exact ⟨parts, hashless, spaceless⟩
  · have leading : (slash :: relative).head? = some slash := rfl
    rw [checkPath, if_pos leading]
    exact ⟨parts, List.not_mem_of_not_mem_cons hashless,
      List.not_mem_of_not_mem_cons spaceless⟩

theorem legal_of_plain {gate : Gate} {path : Str} (plain : Plain path) :
    gate.legal (checkPath path) = true :=
  have parts := checkPath_of_plain plain
  legal_of_plainComponents parts.1 parts.2.1 parts.2.2

/-- Whatever the master answers, a path that the gate returns stays, behind the root of the
mudlib, inside it; and a plain path that the master lets through as it is passes. -/
theorem checkValidPath_sound (gate : Gate) (apply : Str → Bool → Str → Except Str Value)
    (mudlibRoot rawPath funcName : Str) (writeFlag : Bool) (loaded : gate.master = some apply) :
    (∀ p, gate.checkValidPath rawPath writeFlag funcName = .ok (some p) →
        Confined ((resolveMudlibPath mudlibRoot p).drop mudlibRoot.length)) ∧
      (∀ answer, apply rawPath writeFlag funcName = .ok answer →
        allowed answer rawPath = some rawPath → Plain rawPath →
        gate.checkValidPath rawPath writeFlag funcName = .ok (some rawPath)) := by
  constructor
  · intro p returned
    rw [resolveMudlibPath, List.drop_left]
    exact confined_of_legal (Gate.legal_of_checkValidPath loaded returned)
  · intro answer answers allows plain
    exact Gate.checkValidPath_of_legal loaded answers allows (legal_of_plain plain)

/-- A master that answers 1 to everything. -/
def Gate.permissive : Gate where
  ldmud := true
  caller := none
  master := some fun _ _ _ => .ok (.int 1)

/-- The path `/d/x` in LDMud. -/
theorem checkValidPath_sound_plain :
    Gate.permissive.checkValidPath (str "/d/x") false (str "read_file") = .ok (some (str "/d/x")) ∧
      Confined ((resolveMudlibPath (str "lib") (str "/d/x")).drop 3) := by
  have law := checkValidPath_sound Gate.permissive (fun _ _ _ => .ok (.int 1)) (str "lib")
    (str "/d/x") (str "read_file") false rfl
  have plain : Plain (str "/d/x") :=
    ⟨⟨str "d/x", .inr rfl, by decide⟩, by decide, by decide⟩
  have passes := law.2 (.int 1) rfl rfl plain
  exact ⟨passes, law.1 (str "/d/x") passes⟩

end Kjdmud.Efun
