import Kjdmud.Scheduler.CallOut.Core
import Mathlib.Data.List.Nodup
import Mathlib.Order.Nat

/-!
# The life of a call_out

What the log of a run says about its call_outs, without looking at the
scheduler's table.  An entry is *pending* from its addition until it is invoked
or a `remove` operation that names it; `Lifecycle` is the law every log should
obey.
-/

namespace Kjdmud.Scheduler

variable {T : Type}

/-- The entries added, not yet invoked and not removed, oldest first.  A `remove`
operation takes the oldest entry it names. -/
def pending : List (Event T) → List (CallOutEntry T)
  | [] => []
  | .added entry :: log => pending log ++ [entry]
  | .found _ _ _ :: log => pending log
  | .removed world selector _ :: log => (pending log).eraseP (selector.picks world)
  | .removedAll world obj :: log => (pending log).filter fun entry => !entry.purged world obj
  | .invoked entry _ :: log => (pending log).filter fun other => other.handle ≠ entry.handle
  | .dropped _ :: log => pending log

/-- The entries invoked, newest first. -/
def invocations : List (Event T) → List (CallOutEntry T)
  | [] => []
  | .invoked entry _ :: log => entry :: invocations log
  | _ :: log => invocations log

/-- The entries passed over because their target was gone. -/
def drops : List (Event T) → List (CallOutEntry T)
  | [] => []
  | .dropped entry :: log => entry :: drops log
  | _ :: log => drops log

/-- The part of the law that concerns the invocations alone: each entry is invoked
at most once, and not before it is due. -/
structure Punctual (log : List (Event T)) : Prop where
  once : ((invocations log).map CallOutEntry.handle).Nodup
  added : ∀ entry ∈ invocations log, Event.added entry ∈ log
  due : ∀ entry time, Event.invoked entry time ∈ log → entry.dueAt ≤ time

/-- The part of the law that concerns `find` and `remove`: a pending entry is found
under its handle, and an entry that stopped being pending is never invoked
again. -/
structure Revocable (log : List (Event T)) : Prop where
  found : ∀ later world handle result earlier,
    log = later ++ .found world (.byHandle handle) result :: earlier →
      (∃ entry ∈ pending earlier, entry.handle = handle) → result ≠ -1
  removed : ∀ later world handle result earlier,
    log = later ++ .removed world (.byHandle handle) result :: earlier →
      (∃ entry ∈ pending earlier, entry.handle = handle) → result ≠ -1
  never : ∀ later event earlier, log = later ++ event :: earlier →
    ∀ entry ∈ pending earlier, entry ∉ pending (event :: earlier) →
      ∀ entry' ∈ invocations later, entry'.handle ≠ entry.handle

/-- The law every log should obey. -/
structure Lifecycle (log : List (Event T)) : Prop extends Punctual log, Revocable log

/-! ## Erasing the first match -/

section Erase

variable {α : Type} {p q : α → Bool} {l : List α} {a : α}

/-- Erasing the first match commutes with a filter that keeps it. -/
theorem filter_eraseP (kept : ∀ first, l.find? p = some first → q first = true) :
    (l.eraseP p).filter q = (l.filter q).eraseP p := by
  induction l with
  | nil => rfl
  | cons first l ih =>
      cases picked : p first with
      | true =>
          have keep := kept first (by simp [picked])
          simp [picked, keep]
      | false =>
          have later := ih fun other found => kept other (by simpa [picked] using found)
          cases keep : q first <;> simp [picked, keep, later]

/-- Whatever is not the first match stays. -/
theorem mem_eraseP_of_find? (member : a ∈ l) (other : l.find? p ≠ some a) :
    a ∈ l.eraseP p := by
  induction l with
  | nil => contradiction
  | cons first l ih =>
      cases picked : p first with
      | true =>
          have differ : first ≠ a := by simpa [picked] using other
          simpa [picked, differ.symm] using member
      | false =>
          rcases List.mem_cons.mp member with rfl | inTail
          · simp [picked]
          · have later := ih inTail (by simpa [picked] using other)
            simp [picked, later]

end Erase

/-! ## Lawful logs -/

/-- What the law requires of an event in view of the events before it. -/
def LawfulEvent (log : List (Event T)) : Event T → Prop
  | .added entry => ∀ other, Event.added other ∈ log → other.handle < entry.handle
  | .invoked entry _ => entry ∈ pending log
  | .found _ (.byHandle handle) result | .removed _ (.byHandle handle) result =>
      (∃ entry ∈ pending log, entry.handle = handle) → result ≠ -1
  | _ => True

/-- Every event is lawful in view of the events before it. -/
def Lawful : List (Event T) → Prop
  | [] => True
  | event :: log => LawfulEvent log event ∧ Lawful log

theorem Lawful.append {later earlier : List (Event T)} (lawful : Lawful (later ++ earlier)) :
    Lawful earlier := by
  induction later with
  | nil => exact lawful
  | cons event later ih => exact ih lawful.2

/-- An event makes nothing pending but the entry it adds. -/
theorem pending_cons_subset {event : Event T} {log : List (Event T)} {entry : CallOutEntry T}
    (member : entry ∈ pending (event :: log)) :
    entry ∈ pending log ∨ event = .added entry := by
  cases event with
  | added added =>
      rcases List.mem_append.mp member with before | new
      · exact .inl before
      · exact .inr (by rw [List.mem_singleton.mp new])
  | found world selector result => exact .inl member
  | removed world selector result => exact .inl (List.mem_of_mem_eraseP member)
  | removedAll world obj => exact .inl (List.mem_of_mem_filter member)
  | invoked invoked time => exact .inl (List.mem_of_mem_filter member)
  | dropped dropped => exact .inl member

/-- A pending entry was added. -/
theorem added_of_pending {log : List (Event T)} {entry : CallOutEntry T}
    (member : entry ∈ pending log) : Event.added entry ∈ log := by
  induction log with
  | nil => contradiction
  | cons event log ih =>
      rcases pending_cons_subset member with before | rfl
      · exact List.mem_cons_of_mem event (ih before)
      · exact List.mem_cons_self

/-- Pending entries stand in the order of their handles. -/
theorem Lawful.sorted {log : List (Event T)} (lawful : Lawful log) :
    (pending log).Pairwise fun first second => first.handle < second.handle := by
  induction log with
  | nil => exact List.Pairwise.nil
  | cons event log ih =>
      have before := ih lawful.2
      cases event with
      | added entry =>
          refine List.pairwise_append.mpr ⟨before, List.pairwise_singleton _ _, ?_⟩
          intro first firstMember second secondMember
          rw [List.mem_singleton.mp secondMember]
          exact lawful.1 first (added_of_pending firstMember)
      | found world selector result => exact before
      | removed world selector result => exact before.sublist List.eraseP_sublist
      | removedAll world obj => exact before.sublist List.filter_sublist
      | invoked entry time => exact before.sublist List.filter_sublist
      | dropped entry => exact before

/-- A pending entry is known by its handle. -/
theorem Lawful.eq_of_handle_eq {log : List (Event T)} (lawful : Lawful log)
    {first second : CallOutEntry T} (firstMember : first ∈ pending log)
    (secondMember : second ∈ pending log) (same : first.handle = second.handle) :
    first = second := by
  have nodup : ((pending log).map CallOutEntry.handle).Nodup :=
    List.pairwise_map.mpr (lawful.sorted.imp fun less => Int.ne_of_lt less)
  exact List.inj_on_of_nodup_map nodup firstMember secondMember same

/-- A handle that was given out and is not pending never becomes pending again. -/
theorem Lawful.not_pending {later earlier : List (Event T)}
    (lawful : Lawful (later ++ earlier)) {entry : CallOutEntry T}
    (added : Event.added entry ∈ earlier)
    (done : ∀ other ∈ pending earlier, other.handle ≠ entry.handle) :
    ∀ other ∈ pending (later ++ earlier), other.handle ≠ entry.handle := by
  induction later with
  | nil => exact done
  | cons event later ih =>
      intro other member
      rcases pending_cons_subset member with before | rfl
      · exact ih lawful.2 other before
      · have fresh := lawful.1 entry (List.mem_append_right later added)
        omega

/-- A lawful log never invokes an entry that stopped being pending. -/
theorem Lawful.never {later earlier : List (Event T)} {event : Event T}
    (lawful : Lawful (later ++ event :: earlier)) {entry : CallOutEntry T}
    (wasPending : entry ∈ pending earlier) (isDone : entry ∉ pending (event :: earlier)) :
    ∀ other ∈ invocations later, other.handle ≠ entry.handle := by
  have lawfulNow : Lawful (event :: earlier) := lawful.append
  have added : Event.added entry ∈ event :: earlier :=
    List.mem_cons_of_mem event (added_of_pending wasPending)
  have done : ∀ other ∈ pending (event :: earlier), other.handle ≠ entry.handle := by
    intro other member same
    rcases pending_cons_subset member with before | rfl
    · have equal := lawfulNow.2.eq_of_handle_eq before wasPending same
      exact isDone (equal ▸ member)
    · have fresh := lawfulNow.1 entry (added_of_pending wasPending)
      omega
  induction later with
  | nil =>
      intro other member
      contradiction
  | cons next later ih =>
      have before := ih lawful.2
      cases next with
      | invoked invoked time =>
          intro other member
          rcases List.mem_cons.mp member with rfl | earlierMember
          · exact lawful.2.not_pending added done _ lawful.1
          · exact before other earlierMember
      | added _ | found _ _ _ | removed _ _ _ | removedAll _ _ | dropped _ => exact before

/-- A lawful log is revocable. -/
theorem Lawful.revocable {log : List (Event T)} (lawful : Lawful log) : Revocable log where
  found := by
    rintro later world handle result earlier rfl
    exact lawful.append.1
  removed := by
    rintro later world handle result earlier rfl
    exact lawful.append.1
  never := by
    rintro later event earlier rfl entry wasPending isDone
    exact lawful.never wasPending isDone

end Kjdmud.Scheduler
