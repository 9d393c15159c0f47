import Kjdmud.Vm.Value
import Mathlib.Data.List.Basic

/-!
# The gate in front of the file efuns

`legalPathFluffos`, `legalPathLdmud` and `checkValidPath` of `src/efun/EfunTable.cpp`, and
`VM::resolveMudlibPath`.  Both scanners walk a pointer through the path and look only
forward from it, so a position is the rest of the path from there; the one byte that
`legalPathLdmud` looks back at is remembered as a flag.
-/

namespace Kjdmud.Efun

open Kjdmud.Vm (Value)

/-- `/`. -/
def slash : UInt8 := 0x2f

/-- `.`. -/
def dot : UInt8 := 0x2e

/-- The byte `i` places further on; a NUL behind the end, as in a C string. -/
def byteAt (s : Str) (i : Nat) : UInt8 :=
  s.getD i 0

/-! ## FluffOS -/

/-- `path.find("/.", p)`: the path from the dot on. -/
def findSlashDot : Str → Option Str
  | [] => none
  | c :: rest => if c = slash ∧ rest.head? = some dot then some rest else findSlashDot rest

theorem findSlashDot_length {s t : Str} (found : findSlashDot s = some t) :
    t.length < s.length := by
  induction s with
  | nil => cases found
  | cons c rest ih =>
      rw [findSlashDot] at found
      split at found
      · cases found
        exact Nat.lt_succ_self _
      · exact Nat.lt_succ_of_lt (ih found)

/-- Where the scanner of `legalPathFluffos` looks for the next component: behind the first of
two dots. -/
def skipDot (s : Str) : Str :=
  if byteAt s 0 = dot ∧ byteAt s 1 = dot then s.drop 1 else s

theorem skipDot_length (s : Str) : (skipDot s).length ≤ s.length := by
  unfold skipDot
  split
  · rw [List.length_drop]
    exact Nat.sub_le _ _
  · exact Nat.le_refl _

/-- The loop of `legalPathFluffos`. -/
def scanFluffos (s : Str) : Bool :=
  if byteAt s 0 = dot ∧ byteAt s 1 = 0 then true
  else if byteAt s 0 = dot ∧
      (byteAt (skipDot s) 1 = slash ∨ byteAt (skipDot s) 1 = 0) then false
  else
    match _found : findSlashDot (skipDot s) with
    | none => true
    | some next => scanFluffos next
termination_by s.length
decreasing_by exact Nat.lt_of_lt_of_le (findSlashDot_length _found) (skipDot_length s)

/-- `legalPathFluffos`. -/
def legalPathFluffos (path : Str) : Bool :=
  if path = [] then false
  else if byteAt path 0 = slash then false
  else if path.contains 0x23 then false
  else scanFluffos path

/-! ## LDMud -/

/-- `path.find('.', p)`: whether a component starts there, and the path from the dot on. -/
def findDot : Bool → Str → Option (Bool × Str)
  | _, [] => none
  | start, c :: rest => if c = dot then some (start, c :: rest) else findDot (c = slash) rest

theorem findDot_length {start start' : Bool} {s t : Str}
    (found : findDot start s = some (start', t)) : 0 < t.length ∧ t.length ≤ s.length := by
  induction s generalizing start with
  | nil => cases found
  | cons c rest ih =>
      rw [findDot] at found
      split at found
      · cases found
        exact ⟨Nat.succ_pos _, Nat.le_refl _⟩
      · exact ⟨(ih found).1, Nat.le_succ_of_le (ih found).2⟩

/-- The loop of `legalPathLdmud`. -/
def scanLdmud (start : Bool) (s : Str) : Bool :=
  match _found : findDot start s with
  | none => true
  | some (atComponentStart, p) =>
      if byteAt p 1 ≠ dot then scanLdmud false (p.drop 1)
      else if (byteAt p 2 = 0 ∨ byteAt p 2 = slash) ∧ atComponentStart = true then false
      else scanLdmud false (p.drop 2)
termination_by s.length
decreasing_by
  · have shorter := findDot_length _found
    rw [List.length_drop]
    omega
  · have shorter := findDot_length _found
    rw [List.length_drop]
    omega

/-- `legalPathLdmud`. -/
def legalPathLdmud (path : Str) : Bool :=
  if path.contains 0x20 then false
  else if path ≠ [] ∧ byteAt path 0 = slash then false
  else scanLdmud true path

/-! ## The gate -/

/-- What `checkValidPath` asks the driver for: the dialect, the filename of the current object,
and what `valid_read` or `valid_write` of the master answers about a path, to which efun. -/
structure Gate where
  ldmud : Bool
  caller : Option Str
  /-- `none` while no master is loaded. -/
  master : Option (Str → Bool → Str → Except Str Value)

/-- The path that an answer of the master allows. -/
def allowed (answer : Value) (rawPath : Str) : Option Str :=
  match answer.data with
  | .int denied => if denied = 0 then none else some rawPath
  | .string rewritten => some rewritten
  | _ => some rawPath

/-- The path without one leading slash. -/
def checkPath (approved : Str) : Str :=
  if approved.head? = some slash then approved.drop 1 else approved

namespace Gate

/-- The legality check of the dialect. -/
def legal (gate : Gate) (path : Str) : Bool :=
  if gate.ldmud then legalPathLdmud path else legalPathFluffos path

/-- `checkValidPath`. -/
def checkValidPath (gate : Gate) (rawPath : Str) (writeFlag : Bool) (funcName : Str) :
    Except Str (Option Str) :=
  match gate.master with
  | none => .ok (some rawPath)
  | some apply =>
      match apply rawPath writeFlag funcName with
      | .error e => .error e
      | .ok answer =>
          match allowed answer rawPath with
          | none => .ok none
          | some gated =>
              if gate.legal (checkPath gated) then .ok (some gated)
              else if gate.ldmud then
                .error (str "Illegal path '" ++ checkPath gated ++ str "' for " ++ funcName ++
                  str "() by " ++ gate.caller.getD (str "?"))
              else .ok none

end Gate

/-- What `VM::resolveMudlibPath` puts behind the root of the mudlib. -/
def normalized (lpcPath : Str) : Str :=
  if lpcPath.head? = some slash then lpcPath else slash :: lpcPath

/-- `VM::resolveMudlibPath`. -/
def resolveMudlibPath (mudlibRoot lpcPath : Str) : Str :=
  mudlibRoot ++ normalized lpcPath

/-!
## The components of a path

What the operating system reads of a path is the part before its first NUL, cut at the
slashes.  `ParentIn` finds a component `..` in a walk over the bytes, as the scanners of
the gate do; it says when a position is the start of a component.
-/

/-- What a C string keeps of a path. -/
def cString (s : Str) : Str :=
  s.takeWhile (· ≠ 0)

/-- The components of a path. -/
def components (s : Str) : List Str :=
  s.splitOn slash

/-- `..`. -/
def parentDir : Str := [dot, dot]

/-- The walk over the components of a path, with the directories passed so far, the last one
first: `none` once it leaves the directory where it began. -/
def descend : List Str → List Str → Option (List Str)
  | passed, [] => some passed
  | passed, c :: rest =>
      if c = [] ∨ c = [dot] then descend passed rest
      else if c = parentDir then
        if passed = [] then none else descend passed.tail rest
      else descend (c :: passed) rest

/-- Without a component `..` no walk leaves the directory. -/
theorem descend_isSome {passed rest : List Str} (confined : parentDir ∉ rest) :
    (descend passed rest).isSome := by
  induction rest generalizing passed with
  | nil => rfl
  | cons c rest ih =>
      rcases List.ne_and_not_mem_of_not_mem_cons confined with ⟨differs, later⟩
      rw [descend]
      split
      · exact ih later
      · rw [if_neg (Ne.symm differs)]
        exact ih later

/-! ## Splitting at the slashes -/

theorem components_ne_nil (s : Str) : components s ≠ [] :=
  List.splitOnP_ne_nil _ s

@[simp]
theorem components_nil : components [] = [[]] :=
  List.splitOn_nil slash

theorem components_slash (rest : Str) :
    components (slash :: rest) = [] :: components rest := by
  rw [components, List.splitOn, List.splitOnP_cons_eq_if_modifyHead, if_pos (by rfl)]
  rfl

theorem components_cons {c : UInt8} (rest : Str) (plain : c ≠ slash) :
    components (c :: rest) = (components rest).modifyHead (List.cons c) := by
  rw [components, List.splitOn, List.splitOnP_cons_eq_if_modifyHead,
    if_neg (by simpa using plain)]
  rfl

/-- The components of a path with a byte in front of it. -/
theorem exists_components_cons {c : UInt8} (rest : Str) (plain : c ≠ slash) :
    ∃ first others, components rest = first :: others ∧
      components (c :: rest) = (c :: first) :: others := by
  rcases List.exists_cons_of_ne_nil (components_ne_nil rest) with ⟨first, others, parts⟩
  exact ⟨first, others, parts, by rw [components_cons rest plain, parts]; rfl⟩

theorem components_slash_tail (rest : Str) :
    (components (slash :: rest)).tail = components rest := by
  rw [components_slash, List.tail_cons]

theorem components_cons_tail {c : UInt8} (rest : Str) (plain : c ≠ slash) :
    (components (c :: rest)).tail = (components rest).tail := by
  rcases exists_components_cons rest plain with ⟨first, others, parts, whole⟩
  rw [parts, whole, List.tail_cons, List.tail_cons]

/-- Where the first component is known to begin with a byte, the path does. -/
theorem eq_cons_of_head_components {s first : Str} {c : UInt8} {others : List Str}
    (parts : components s = (c :: first) :: others) :
    ∃ rest, s = c :: rest ∧ c ≠ slash ∧ components rest = first :: others := by
  cases s with
  | nil =>
      rw [components_nil] at parts
      cases parts
  | cons b rest =>
      by_cases cut : b = slash
      · rw [cut, components_slash] at parts
        cases parts
      · rcases exists_components_cons rest cut with ⟨first', others', behind, whole⟩
        rw [whole] at parts
        cases parts
        exact ⟨rest, rfl, cut, behind⟩

theorem cString_cons {c : UInt8} (rest : Str) (read : c ≠ 0) :
    cString (c :: rest) = c :: cString rest :=
  List.takeWhile_cons_of_pos (by simpa using read)

theorem cString_nul (rest : Str) : cString (0 :: rest) = [] :=
  rfl

/-- A first byte that a C string keeps is the first one of the path. -/
theorem eq_cons_of_cString {s rest : Str} {c : UInt8} (kept : cString s = c :: rest) :
    ∃ rest', s = c :: rest' ∧ cString rest' = rest := by
  cases s with
  | nil => cases kept
  | cons b behind =>
      by_cases ended : b = 0
      · rw [ended, cString_nul] at kept
        cases kept
      · rw [cString_cons behind ended] at kept
        cases kept
        exact ⟨behind, rfl, rfl⟩

/-- Where the first component is empty, the path ends or a slash stands there. -/
theorem byteAt_of_head_components_nil {s : Str} {others : List Str}
    (parts : components (cString s) = [] :: others) : byteAt s 0 = 0 ∨ byteAt s 0 = slash := by
  cases s with
  | nil => exact .inl rfl
  | cons b rest =>
      by_cases ended : b = 0
      · exact .inl ended
      · rw [cString_cons rest ended] at parts
        by_cases cut : b = slash
        · exact .inr cut
        · rcases exists_components_cons (cString rest) cut with ⟨first, others', -, whole⟩
          rw [whole] at parts
          cases parts

/-! ## Finding `..` -/

/-- A component `..` lies in what a C string keeps of the path; a component starts at the first
byte when `start` is set. -/
inductive ParentIn : Bool → Str → Prop
  | here {s : Str} (ends : byteAt s 0 = 0 ∨ byteAt s 0 = slash) :
      ParentIn true (dot :: dot :: s)
  | there {start : Bool} {c : UInt8} {rest : Str} (read : c ≠ 0)
      (later : ParentIn (decide (c = slash)) rest) : ParentIn start (c :: rest)

namespace ParentIn

theorem not_nil {start : Bool} : ¬ ParentIn start [] := by
  intro found
  cases found

/-- Where no component starts, the search goes on behind the byte. -/
theorem tail_of_false {c : UInt8} {rest : Str} (found : ParentIn false (c :: rest)) :
    c ≠ 0 ∧ ParentIn (decide (c = slash)) rest := by
  cases found with
  | there read later => exact ⟨read, later⟩

/-- So it does behind a byte that is not a dot. -/
theorem tail_of_ne_dot {start : Bool} {c : UInt8} {rest : Str} (plain : c ≠ dot)
    (found : ParentIn start (c :: rest)) : c ≠ 0 ∧ ParentIn (decide (c = slash)) rest := by
  cases found with
  | here ends => exact absurd rfl plain
  | there read later => exact ⟨read, later⟩

/-- Behind a dot no component starts. -/
theorem tail_of_dot {c : UInt8} {rest : Str} (first : c = dot)
    (later : ParentIn (decide (c = slash)) rest) : ParentIn false rest := by
  rwa [first, decide_eq_false (by decide)] at later

/-- A component that does not begin with two dots is not the one. -/
theorem of_start {s : Str} (other : ¬ (byteAt s 0 = dot ∧ byteAt s 1 = dot))
    (found : ParentIn true s) : ParentIn false s := by
  cases found with
  | here ends => exact absurd ⟨rfl, rfl⟩ other
  | there read later => exact .there read later

end ParentIn

/-- A first component `..` is found where it starts. -/
theorem parentIn_of_head {s : Str} {others : List Str}
    (parts : components (cString s) = parentDir :: others) : ParentIn true s := by
  rcases eq_cons_of_head_components parts with ⟨kept, first, -, parts⟩
  rcases eq_cons_of_cString first with ⟨rest, rfl, rfl⟩
  rcases eq_cons_of_head_components parts with ⟨kept, second, -, parts⟩
  rcases eq_cons_of_cString second with ⟨rest, rfl, rfl⟩
  exact .here (byteAt_of_head_components_nil parts)

/-- A component `..` behind the first one is found from any position. -/
theorem parentIn_of_mem_tail {s : Str} {start : Bool}
    (escapes : parentDir ∈ (components (cString s)).tail) : ParentIn start s := by
  induction s generalizing start with
  | nil => cases escapes
  | cons c rest ih =>
      by_cases ended : c = 0
      · rw [ended, cString_nul] at escapes
        cases escapes
      · rw [cString_cons rest ended] at escapes
        refine .there ended ?_
        by_cases cut : c = slash
        · rw [cut, components_slash_tail] at escapes
          rw [decide_eq_true cut]
          rcases List.exists_cons_of_ne_nil (components_ne_nil (cString rest)) with
            ⟨first, others, parts⟩
          rw [parts] at escapes
          rcases List.mem_cons.mp escapes with head | later
          · exact parentIn_of_head (head ▸ parts)
          · exact ih (by rw [parts]; exact later)
        · rw [components_cons_tail _ cut] at escapes
          exact ih escapes

/-- Every component `..` is found from the start of the path. -/
theorem parentIn_of_mem {s : Str} (escapes : parentDir ∈ components (cString s)) :
    ParentIn true s := by
  rcases List.exists_cons_of_ne_nil (components_ne_nil (cString s)) with
    ⟨first, others, parts⟩
  have position := escapes
  rw [parts] at position
  rcases List.mem_cons.mp position with head | later
  · exact parentIn_of_head (head ▸ parts)
  · exact parentIn_of_mem_tail (by rw [parts]; exact later)

end Kjdmud.Efun
