import Kjdmud.Object.Snoop.Peers

/-!
# Sound snoops

Between live objects the links of snoops are doubly linked chains: down from the one that
snoops, up from the one that is snooped.  Objects that are destructed have no links.
-/

namespace Kjdmud.Object

open Relation

namespace Peers

/-! ## Links after a change -/

section Change

variable {p : Peers} {weak v : Option ObjectId} {f : Peer → Peer} {a : ObjectId}
  {member : Peer → Option ObjectId}

theorem held_change (freed : ∀ o, (f o).freed = o.freed) : (p.change weak f).held a = p.held a := by
  rw [held, change]
  by_cases here : weak = some a
  · rw [if_pos here, Option.any_map, held]
    congr 1
    funext o
    exact congrArg _ (freed o)
  · rw [if_neg here, held]

theorem lock_change (freed : ∀ o, (f o).freed = o.freed) : (p.change weak f).lock v = p.lock v := by
  rw [lock, lock]
  congr 1
  funext a
  exact held_change freed

theorem gone_change (destructed : ∀ o, (f o).destructed = o.destructed) :
    (p.change weak f).gone a = p.gone a := by
  rw [gone, change]
  by_cases here : weak = some a
  · rw [if_pos here, Option.all_map, gone]
    congr 1
    funext o
    exact destructed o
  · rw [if_neg here, gone]

theorem link_change_kept (freed : ∀ o, (f o).freed = o.freed)
    (kept : ∀ o, member (f o) = member o) :
    (p.change weak f).link a member = p.link a member := by
  rw [link, lock_change freed, link, change]
  by_cases here : weak = some a
  · rw [if_pos here]
    cases p a with
    | none => rfl
    | some o => exact congrArg p.lock (kept o)
  · rw [if_neg here]

theorem held_of_lock (locked : p.lock weak = some a) : p.held a = true :=
  (Option.filter_eq_some_iff.mp locked).2

theorem lock_of_held (held : p.held a = true) : p.lock (some a) = some a :=
  Option.filter_eq_some_iff.mpr ⟨rfl, held⟩

/-- Locking again changes nothing. -/
theorem lock_link : p.lock (p.link a member) = p.link a member := by
  cases linked : p.link a member with
  | none => rfl
  | some b => exact lock_of_held (held_of_lock linked)

theorem link_change_set (freed : ∀ o, (f o).freed = o.freed) (set : ∀ o, member (f o) = v)
    (locked : p.lock weak = weak) :
    (p.change weak f).link a member = if weak = some a then p.lock v else p.link a member := by
  rw [link, lock_change freed, change]
  by_cases here : weak = some a
  · rw [if_pos here, if_pos here]
    rw [here] at locked
    rcases (Option.any_eq_true _ _).mp (held_of_lock locked) with ⟨o, there, _⟩
    rw [there]
    exact congrArg p.lock (set o)
  · rw [if_neg here, if_neg here, link]

end Change

/-! ## Relinking -/

/-- The same objects with other links. -/
structure Relinked (p p' : Peers) (victim snooper : ObjectId → Option ObjectId) : Prop where
  held : ∀ a, p'.held a = p.held a
  gone : ∀ a, p'.gone a = p.gone a
  snooping : ∀ a, p'.link a Peer.snooping = victim a
  snoopedBy : ∀ a, p'.link a Peer.snoopedBy = snooper a

section Relinked

variable {p p' : Peers} {weak v : Option ObjectId} {victim snooper : ObjectId → Option ObjectId}

theorem Relinked.self : Relinked p p (p.link · Peer.snooping) (p.link · Peer.snoopedBy) :=
  ⟨fun _ => rfl, fun _ => rfl, fun _ => rfl, fun _ => rfl⟩

theorem Relinked.lock (relinked : Relinked p p' victim snooper) : p'.lock v = p.lock v := by
  rw [Peers.lock, Peers.lock]
  congr 1
  funext a
  exact relinked.held a

theorem Relinked.live (relinked : Relinked p p' victim snooper) (a : ObjectId) :
    p'.live a = p.live a := by
  rw [Peers.live, Peers.live, relinked.held, relinked.gone]

theorem Relinked.setSnooping (relinked : Relinked p p' victim snooper)
    (locked : p.lock weak = weak) :
    Relinked p (p'.change weak (Peer.setSnooping v))
      (fun a => if weak = some a then p.lock v else victim a) snooper where
  held a := (held_change (f := Peer.setSnooping v) (fun _ => rfl)).trans (relinked.held a)
  gone a := (gone_change (f := Peer.setSnooping v) (fun _ => rfl)).trans (relinked.gone a)
  snooping a := by
    have locked' : p'.lock weak = weak := relinked.lock.trans locked
    rw [link_change_set (f := Peer.setSnooping v) (fun _ => rfl) (fun _ => rfl) locked',
      relinked.lock, relinked.snooping]
  snoopedBy a :=
    (link_change_kept (f := Peer.setSnooping v) (fun _ => rfl) (fun _ => rfl)).trans (relinked.snoopedBy a)

theorem Relinked.setSnoopedBy (relinked : Relinked p p' victim snooper)
    (locked : p.lock weak = weak) :
    Relinked p (p'.change weak (Peer.setSnoopedBy v)) victim
      (fun a => if weak = some a then p.lock v else snooper a) where
  held a := (held_change (f := Peer.setSnoopedBy v) (fun _ => rfl)).trans (relinked.held a)
  gone a := (gone_change (f := Peer.setSnoopedBy v) (fun _ => rfl)).trans (relinked.gone a)
  snooping a :=
    (link_change_kept (f := Peer.setSnoopedBy v) (fun _ => rfl) (fun _ => rfl)).trans (relinked.snooping a)
  snoopedBy a := by
    have locked' : p'.lock weak = weak := relinked.lock.trans locked
    rw [link_change_set (f := Peer.setSnoopedBy v) (fun _ => rfl) (fun _ => rfl) locked',
      relinked.lock, relinked.snoopedBy]

end Relinked

/-! ## The invariant -/

/-- The snoops between live objects. -/
def chains (p : Peers) : Chains ObjectId where
  up a := if p.live a then p.link a Peer.snoopedBy else none
  down a := if p.live a then p.link a Peer.snooping else none

/-- A link that leads to something constructed. -/
def Known (bound : ObjectId) (weak : Option ObjectId) : Prop :=
  ∀ x, weak = some x → x < bound

structure Sound (p : Peers) (bound : ObjectId) : Prop where
  chains : p.chains.Sound
  cleared : ∀ a, p.held a = true → p.gone a = true →
    p.link a Peer.snooping = none ∧ p.link a Peer.snoopedBy = none
  bounded : ∀ a o, p a = some o → a < bound ∧ Known bound o.snooping ∧ Known bound o.snoopedBy

/-! ## What a sound world has -/

section Sound

variable {p : Peers} {bound a b : ObjectId}

theorem held_of_live (live : p.live a = true) : p.held a = true :=
  (Bool.and_eq_true_iff.mp live).1

theorem held_of_link {member : Peer → Option ObjectId} (linked : p.link a member = some b) :
    p.held b = true :=
  held_of_lock linked

theorem up_of_live (live : p.live a = true) : p.chains.up a = p.link a Peer.snoopedBy :=
  if_pos live

theorem down_of_live (live : p.live a = true) : p.chains.down a = p.link a Peer.snooping :=
  if_pos live

theorem live_of_up (link : p.chains.up a = some b) : p.live a = true := by
  by_contra dead
  have none_ : p.chains.up a = none := if_neg dead
  rw [none_] at link
  cases link

theorem live_of_down (link : p.chains.down a = some b) : p.live a = true := by
  by_contra dead
  have none_ : p.chains.down a = none := if_neg dead
  rw [none_] at link
  cases link

theorem Sound.up_eq (sound : Sound p bound) (held : p.held a = true) :
    p.chains.up a = p.link a Peer.snoopedBy := by
  by_cases live : p.live a = true
  · exact up_of_live live
  · have gone : p.gone a = true := by simpa [Peers.live, held] using live
    rw [(sound.cleared a held gone).2]
    exact if_neg live

theorem Sound.down_eq (sound : Sound p bound) (held : p.held a = true) :
    p.chains.down a = p.link a Peer.snooping := by
  by_cases live : p.live a = true
  · exact down_of_live live
  · have gone : p.gone a = true := by simpa [Peers.live, held] using live
    rw [(sound.cleared a held gone).1]
    exact if_neg live

theorem Relinked.chains_eq {p' : Peers} {victim snooper : ObjectId → Option ObjectId}
    (relinked : Relinked p p' victim snooper) :
    p'.chains = ⟨fun a => if p.live a then snooper a else none,
      fun a => if p.live a then victim a else none⟩ := by
  unfold chains
  congr 1
  · funext a
    rw [relinked.live, relinked.snoopedBy]
  · funext a
    rw [relinked.live, relinked.snooping]

end Sound

/-! ## Ends of snoops -/

section Ends

variable {p : Peers} {bound by_ ob : ObjectId}

theorem relinked_stop (held : p.held by_ = true) :
    Relinked p (p.stop by_)
      (fun a => if some by_ = some a then none else p.link a Peer.snooping)
      (fun a => if p.link by_ Peer.snooping = some a then none else p.link a Peer.snoopedBy) :=
  (Relinked.self.setSnoopedBy lock_link).setSnooping (lock_of_held held)

/-- One link is dropped. -/
theorem ite_dropped {live dropped : Prop} [Decidable live] [Decidable dropped]
    (link : Option ObjectId) :
    (if live then if dropped then none else link else none) =
      if dropped then none else if live then link else none := by
  by_cases is_live : live
  · rw [if_pos is_live, if_pos is_live]
  · rw [if_neg is_live, if_neg is_live, ite_self]

theorem chains_stop (live : p.live by_ = true) : (p.stop by_).chains = p.chains.cut by_ := by
  rw [(relinked_stop (held_of_live live)).chains_eq]
  unfold Chains.cut
  rw [down_of_live live]
  congr 1
  · funext a
    exact ite_dropped (p.link a Peer.snoopedBy)
  · funext a
    simp only [Option.some.injEq, eq_comm (a := by_)]
    exact ite_dropped (p.link a Peer.snooping)

theorem relinked_close (held : p.held ob = true) :
    Relinked p (p.close ob)
      (fun a => if p.link ob Peer.snoopedBy = some a then none else p.link a Peer.snooping)
      (fun a => if some ob = some a then none else p.link a Peer.snoopedBy) :=
  (Relinked.self.setSnooping lock_link).setSnoopedBy (lock_of_held held)

theorem chains_close (sound : Sound p bound) (held : p.held ob = true) :
    (p.close ob).chains = p.chains.cutAbove ob := by
  rw [(relinked_close held).chains_eq]
  apply Chains.ext
  · funext a
    rw [sound.chains.up_cutAbove]
    simp only [Option.some.injEq, eq_comm (a := ob)]
    exact ite_dropped (p.link a Peer.snoopedBy)
  · funext a
    rw [Chains.down_cutAbove, sound.up_eq held]
    exact ite_dropped (p.link a Peer.snooping)

theorem relinked_start {victim : ObjectId} (held : p.held by_ = true)
    (held' : p.held victim = true) :
    Relinked p (p.start by_ victim)
      (fun a => if some by_ = some a then some victim
        else if (if p.link by_ Peer.snooping = some victim then none
            else p.link victim Peer.snoopedBy) = some a then none
        else p.link a Peer.snooping)
      (fun a => if some victim = some a then some by_
        else if p.link by_ Peer.snooping = some a then none
        else p.link a Peer.snoopedBy) := by
  let dropped := p.change (p.link by_ Peer.snooping) (Peer.setSnoopedBy none)
  have own : p.lock (p.link by_ Peer.snooping) = p.link by_ Peer.snooping := lock_link
  have first := Relinked.self.setSnoopedBy (v := none) own
  have other : p.lock (dropped.link victim Peer.snoopedBy) = dropped.link victim Peer.snoopedBy :=
    first.lock.symm.trans lock_link
  have between := first.setSnooping (v := none) other
  have joined : Relinked p (p.start by_ victim) _ _ :=
    (between.setSnoopedBy (v := some by_) (lock_of_held held')).setSnooping
      (v := some victim) (lock_of_held held)
  rw [first.snoopedBy, lock_of_held held, lock_of_held held'] at joined
  exact joined

theorem chains_start {victim : ObjectId} (sound : Sound p bound) (live : p.live by_ = true)
    (live' : p.live victim = true) :
    (p.start by_ victim).chains = ((p.chains.cut by_).cutAbove victim).attach by_ victim := by
  have cut := sound.chains.cut by_
  rw [(relinked_start (held_of_live live) (held_of_live live')).chains_eq]
  apply Chains.ext
  · funext a
    simp only [Chains.attach, cut.up_cutAbove]
    simp only [Chains.cut, down_of_live live, Option.some.injEq]
    by_cases here : a = victim
    · rw [here, if_pos live', if_pos rfl, if_pos rfl]
    · rw [if_neg (Ne.symm here), if_neg here, if_neg here]
      exact ite_dropped (p.link a Peer.snoopedBy)
  · funext a
    simp only [Chains.attach, Chains.down_cutAbove, Chains.cut, down_of_live live,
      up_of_live live', Option.some.injEq]
    by_cases here : a = by_
    · rw [here, if_pos live, if_pos rfl, if_pos rfl]
    · rw [if_neg (Ne.symm here), if_neg here, if_neg here]
      exact ite_dropped (p.link a Peer.snooping)

end Ends

/-! ## The invariant after an operation -/

section Operations

variable {p p' : Peers} {bound by_ ob victim : ObjectId} {weak : Option ObjectId}

/-- A change that sets links to what is there. -/
theorem bounded_change (weak : Option ObjectId) {f : Peer → Peer}
    (bounded : ∀ a o, p a = some o → a < bound ∧ Known bound o.snooping ∧ Known bound o.snoopedBy)
    (known : ∀ o, Known bound o.snooping ∧ Known bound o.snoopedBy →
      Known bound (f o).snooping ∧ Known bound (f o).snoopedBy) :
    ∀ a o, p.change weak f a = some o →
      a < bound ∧ Known bound o.snooping ∧ Known bound o.snoopedBy := by
  intro a o here
  rw [change] at here
  by_cases changed : weak = some a
  · rw [if_pos changed] at here
    rcases Option.map_eq_some_iff.mp here with ⟨before, there, rfl⟩
    have old := bounded a before there
    exact ⟨old.1, known before old.2⟩
  · rw [if_neg changed] at here
    exact bounded a o here

theorem known_none : Known bound none := by
  intro x same
  cases same

theorem Sound.known_of_held (sound : Sound p bound) {a : ObjectId} (held : p.held a = true) :
    Known bound (some a) := by
  rintro x ⟨⟩
  rcases (Option.any_eq_true _ _).mp held with ⟨o, here, _⟩
  exact (sound.bounded a o here).1

theorem known_setSnooping {v : Option ObjectId} (known : Known bound v) (o : Peer)
    (old : Known bound o.snooping ∧ Known bound o.snoopedBy) :
    Known bound (o.setSnooping v).snooping ∧ Known bound (o.setSnooping v).snoopedBy :=
  ⟨known, old.2⟩

theorem known_setSnoopedBy {v : Option ObjectId} (known : Known bound v) (o : Peer)
    (old : Known bound o.snooping ∧ Known bound o.snoopedBy) :
    Known bound (o.setSnoopedBy v).snooping ∧ Known bound (o.setSnoopedBy v).snoopedBy :=
  ⟨old.1, known⟩

theorem Sound.stop (sound : Sound p bound) (live : p.live by_ = true) :
    Sound (p.stop by_) bound where
  chains := chains_stop live ▸ sound.chains.cut by_
  cleared a held gone := by
    have relinked := relinked_stop (held_of_live live)
    rw [relinked.held] at held
    rw [relinked.gone] at gone
    rw [relinked.snooping, relinked.snoopedBy, (sound.cleared a held gone).1,
      (sound.cleared a held gone).2, ite_self, ite_self]
    exact ⟨rfl, rfl⟩
  bounded := bounded_change _ (bounded_change _ sound.bounded (known_setSnoopedBy known_none))
    (known_setSnooping known_none)

theorem Sound.close (sound : Sound p bound) (held : p.held ob = true) :
    Sound (p.close ob) bound where
  chains := chains_close sound held ▸ sound.chains.cutAbove ob
  cleared a held' gone := by
    have relinked := relinked_close held
    rw [relinked.held] at held'
    rw [relinked.gone] at gone
    rw [relinked.snooping, relinked.snoopedBy, (sound.cleared a held' gone).1,
      (sound.cleared a held' gone).2, ite_self, ite_self]
    exact ⟨rfl, rfl⟩
  bounded := bounded_change _ (bounded_change _ sound.bounded (known_setSnooping known_none))
    (known_setSnoopedBy known_none)

/-- A snoop of a victim that is not below. -/
theorem Sound.start (sound : Sound p bound) (live : p.live by_ = true)
    (live' : p.live victim = true) (apart : ¬ ReflTransGen p.chains.Above victim by_) :
    Sound (p.start by_ victim) bound where
  chains := by
    rw [chains_start sound live live']
    have cut := sound.chains.cut by_
    apply (cut.cutAbove victim).attach
    · rw [Chains.down_cutAbove]
      have none_ : (p.chains.cut by_).down by_ = none := if_pos rfl
      rw [none_, ite_self]
    · rw [cut.up_cutAbove, if_pos rfl]
    · intro around
      apply apart
      refine ReflTransGen.mono ?_ _ _ around
      intro a b above
      rw [Chains.Above, Chains.down_cutAbove] at above
      split at above
      · cases above
      · have below : (if a = by_ then none else p.chains.down a) = some b := above
        split at below
        · cases below
        · exact below
  cleared a held gone := by
    have relinked := relinked_start (held_of_live live) (held_of_live live')
    rw [relinked.held] at held
    rw [relinked.gone] at gone
    have differs : ∀ {b}, p.live b = true → ¬ some b = some a := by
      rintro b alive ⟨⟩
      simp [Peers.live, gone] at alive
    rw [relinked.snooping, relinked.snoopedBy, if_neg (differs live), if_neg (differs live'),
      (sound.cleared a held gone).1, (sound.cleared a held gone).2, ite_self, ite_self]
    exact ⟨rfl, rfl⟩
  bounded := by
    have first := bounded_change (p.link by_ Peer.snooping) sound.bounded
      (known_setSnoopedBy known_none)
    have second := bounded_change ((p.change (p.link by_ Peer.snooping)
      (Peer.setSnoopedBy none)).link victim Peer.snoopedBy) first (known_setSnooping known_none)
    have third := bounded_change (some victim) second
      (known_setSnoopedBy (sound.known_of_held (held_of_live live)))
    exact bounded_change _ third (known_setSnooping (sound.known_of_held (held_of_live live')))

/-! ## Destruction -/

/-- An object is destructed, and no link leads to it or from it any more. -/
structure Retired (p : Peers) (obj : ObjectId) (p' : Peers) : Prop where
  held : ∀ a, p'.held a = p.held a
  gone : ∀ a, p'.gone a = (p.gone a || a == obj)
  snooping : ∀ a, p.held a = true → p'.link a Peer.snooping =
    if a = obj ∨ p.link a Peer.snooping = some obj then none else p.link a Peer.snooping
  snoopedBy : ∀ a, p.held a = true → p'.link a Peer.snoopedBy =
    if a = obj ∨ p.link a Peer.snoopedBy = some obj then none else p.link a Peer.snoopedBy

/-- A link of an object that stays, without an object that goes. -/
theorem ite_or_filter {a obj : ObjectId} (other : a ≠ obj) (link : Option ObjectId) :
    (if a = obj ∨ link = some obj then none else link) = link.filter fun b => !(b == obj) := by
  cases link with
  | none => exact ite_self _
  | some b =>
      by_cases same : b = obj
      · subst same
        simp [Option.filter]
      · simp [Option.filter, other, same]

theorem Retired.sound {obj : ObjectId} (retired : Retired p obj p') (sound : Sound p bound)
    (bounded : ∀ a o, p' a = some o →
      a < bound ∧ Known bound o.snooping ∧ Known bound o.snoopedBy) : Sound p' bound where
  chains := by
    have live (a : ObjectId) : p'.live a = (p.live a && !(a == obj)) := by
      rw [Peers.live, Peers.live, retired.held, retired.gone]
      cases p.held a <;> cases p.gone a <;> cases a == obj <;> rfl
    have forgotten : p'.chains = p.chains.forget (· == obj) := by
      apply Chains.ext
      · funext a
        simp only [chains, Chains.forget, live]
        by_cases same : a = obj
        · simp [same]
        · by_cases alive : p.live a = true
          · simp only [alive, beq_false_of_ne same, Bool.not_false, Bool.and_self, if_true]
            rw [retired.snoopedBy a (held_of_live alive)]
            exact ite_or_filter same _
          · simp [alive]
      · funext a
        simp only [chains, Chains.forget, live]
        by_cases same : a = obj
        · simp [same]
        · by_cases alive : p.live a = true
          · simp only [alive, beq_false_of_ne same, Bool.not_false, Bool.and_self, if_true]
            rw [retired.snooping a (held_of_live alive)]
            exact ite_or_filter same _
          · simp [alive]
    rw [forgotten]
    exact sound.chains.forget _
  cleared a held gone := by
    rw [retired.held] at held
    rw [retired.gone, Bool.or_eq_true, beq_iff_eq] at gone
    rw [retired.snooping a held, retired.snoopedBy a held]
    rcases gone with before | same
    · rw [(sound.cleared a held before).1, (sound.cleared a held before).2]
      exact ⟨ite_self _, ite_self _⟩
    · rw [if_pos (.inl same), if_pos (.inl same)]
      exact ⟨rfl, rfl⟩
  bounded := bounded

section Retire

variable {obj : ObjectId}

theorem gone_retire (held : p.held obj = true) (a : ObjectId) :
    (p.retire obj).gone a = (p.gone a || a == obj) := by
  have first : (p.change (p.link obj Peer.snooping) (Peer.setSnoopedBy none)).gone a = p.gone a :=
    gone_change (f := Peer.setSnoopedBy none) (fun _ => rfl)
  rw [← first, gone, retire, change]
  by_cases same : a = obj
  · subst same
    have there : ((p.change (p.link a Peer.snooping) (Peer.setSnoopedBy none)).held a) = true :=
      (held_change (f := Peer.setSnoopedBy none) (fun _ => rfl)).trans held
    rcases (Option.any_eq_true _ _).mp there with ⟨o, here, _⟩
    rw [if_pos rfl, here, beq_self_eq_true, Bool.or_true]
    rfl
  · rw [if_neg (by simpa using Ne.symm same), beq_false_of_ne same, Bool.or_false, gone]

theorem held_retire (a : ObjectId) : (p.retire obj).held a = p.held a :=
  (held_change (f := Peer.retire) (fun _ => rfl)).trans
    (held_change (f := Peer.setSnoopedBy none) (fun _ => rfl))

theorem snooping_retire (held : p.held obj = true) (a : ObjectId) :
    (p.retire obj).link a Peer.snooping =
      if some obj = some a then none else p.link a Peer.snooping := by
  have own : p.lock (p.link obj Peer.snooping) = p.link obj Peer.snooping := lock_link
  have first := Relinked.self.setSnoopedBy (v := none) own
  have locked := (first.lock (v := some obj)).trans (lock_of_held held)
  refine (link_change_set (f := Peer.retire) (v := none) (fun _ => rfl) (fun _ => rfl)
    locked).trans ?_
  rw [first.snooping]
  rfl

theorem snoopedBy_retire (a : ObjectId) :
    (p.retire obj).link a Peer.snoopedBy =
      if p.link obj Peer.snooping = some a then none else p.link a Peer.snoopedBy := by
  have own : p.lock (p.link obj Peer.snooping) = p.link obj Peer.snooping := lock_link
  have first := Relinked.self.setSnoopedBy (v := none) own
  exact (link_change_kept (f := Peer.retire) (fun _ => rfl) (fun _ => rfl)).trans
    (first.snoopedBy a)

/-- The two sides of a link between objects in memory. -/
theorem Sound.link_iff (sound : Sound p bound) {a b : ObjectId} (held : p.held a = true)
    (held' : p.held b = true) :
    p.link a Peer.snooping = some b ↔ p.link b Peer.snoopedBy = some a := by
  rw [← sound.down_eq held, ← sound.up_eq held']
  exact sound.chains.mutual_ a b

/-- An object that nobody snoops is destructed. -/
theorem Sound.retire (sound : Sound p bound) (held : p.held obj = true)
    (alone : p.link obj Peer.snoopedBy = none) : Retired p obj (p.retire obj) where
  held := held_retire
  gone := gone_retire held
  snooping a held' := by
    have other : ¬ p.link a Peer.snooping = some obj := by
      rw [sound.link_iff held' held, alone]
      intro same
      cases same
    rw [snooping_retire held]
    simp only [other, or_false, Option.some.injEq, eq_comm (a := obj)]
  snoopedBy a held' := by
    simp only [snoopedBy_retire, sound.link_iff held held']
    by_cases same : a = obj
    · rw [same, alone, ite_self, ite_self]
    · simp only [same, false_or]

/-- An object is destructed and its connection closed. -/
theorem Sound.retire_close (sound : Sound p bound) (held : p.held obj = true) :
    Retired p obj ((p.retire obj).close obj) := by
  have held' : (p.retire obj).held obj = true := (held_retire obj).trans held
  have closed := relinked_close held'
  have snooper : (p.retire obj).link obj Peer.snoopedBy = p.link obj Peer.snoopedBy := by
    rw [snoopedBy_retire]
    apply if_neg
    rw [← sound.down_eq held]
    exact sound.chains.irrefl obj
  constructor
  · intro a
    exact (closed.held a).trans (held_retire a)
  · intro a
    exact (closed.gone a).trans (gone_retire held a)
  · intro a there
    simp only [closed.snooping, snooper, snooping_retire held, ← sound.link_iff there held]
    by_cases same : a = obj
    · simp only [same, true_or, if_true, ite_self]
    · have other : ¬ some obj = some a := fun link => same (Option.some.inj link).symm
      simp only [same, other, false_or, if_false]
  · intro a there
    simp only [closed.snoopedBy, snoopedBy_retire, sound.link_iff held there]
    by_cases same : a = obj
    · rw [same, if_pos rfl, if_pos (.inl rfl)]
    · have other : ¬ some obj = some a := fun link => same (Option.some.inj link).symm
      simp only [same, other, false_or, if_false]

theorem Sound.bounded_retire (sound : Sound p bound) :
    ∀ a o, p.retire obj a = some o →
      a < bound ∧ Known bound o.snooping ∧ Known bound o.snoopedBy :=
  bounded_change _ (bounded_change _ sound.bounded (known_setSnoopedBy known_none))
    fun _ old => ⟨known_none, old.2⟩

end Retire

/-! ## Memory -/

theorem Sound.release (sound : Sound p bound) (obj : ObjectId) : Sound (p.release obj) bound := by
  have held (a : ObjectId) : (p.release obj).held a = (p.held a && !(a == obj)) := by
    simp only [Peers.held, Peers.release, change, Option.some.injEq]
    by_cases same : obj = a
    · subst same
      cases p obj <;> simp
    · simp [same, Ne.symm same]
  have gone (a : ObjectId) : (p.release obj).gone a = p.gone a :=
    gone_change (f := fun o => { o with freed := true }) (fun _ => rfl)
  have link (member : Peer → Option ObjectId)
      (kept : ∀ o : Peer, member { o with freed := true } = member o) (a : ObjectId) :
      (p.release obj).link a member = (p.link a member).filter fun b => !(b == obj) := by
    have raw : (p.release obj a).bind member = (p a).bind member := by
      simp only [Peers.release, change, Option.some.injEq]
      by_cases same : obj = a
      · rw [if_pos same]
        cases p a with
        | none => rfl
        | some o => exact kept o
      · rw [if_neg same]
    rw [Peers.link, raw, Peers.link, Peers.lock, Peers.lock, Option.filter_filter]
    congr 1
    funext b
    exact held b
  have snooping := link Peer.snooping (by intro o; rfl)
  have snoopedBy := link Peer.snoopedBy (by intro o; rfl)
  have live (a : ObjectId) : (p.release obj).live a = (p.live a && !(a == obj)) := by
    rw [Peers.live, Peers.live, held, gone]
    cases p.held a <;> cases p.gone a <;> cases a == obj <;> rfl
  have forgotten : (p.release obj).chains = p.chains.forget (· == obj) := by
    apply Chains.ext
    · funext a
      simp only [Peers.chains, Chains.forget, live, snoopedBy]
      by_cases same : (a == obj) = true
      · simp [same]
      · by_cases alive : p.live a = true
        · simp [same, alive]
        · simp [alive]
    · funext a
      simp only [Peers.chains, Chains.forget, live, snooping]
      by_cases same : (a == obj) = true
      · simp [same]
      · by_cases alive : p.live a = true
        · simp [same, alive]
        · simp [alive]
  constructor
  · rw [forgotten]
    exact sound.chains.forget _
  · intro a held' gone'
    rw [held, Bool.and_eq_true] at held'
    rw [gone] at gone'
    rw [snooping, snoopedBy, (sound.cleared a held'.1 gone').1, (sound.cleared a held'.1 gone').2]
    exact ⟨rfl, rfl⟩
  · exact bounded_change _ sound.bounded fun _ old => old

/-- A new object. -/
theorem Sound.construct (sound : Sound p bound) : Sound (p.construct bound) (bound + 1) := by
  have fresh : p bound = none := by
    cases here : p bound with
    | none => rfl
    | some o => exact absurd (sound.bounded _ o here).1 (Nat.lt_irrefl _)
  have there {a : ObjectId} (old : a ≠ bound) : p.construct bound a = p a :=
    Function.update_of_ne old ..
  have lock {weak : Option ObjectId} (known : Known bound weak) :
      (p.construct bound).lock weak = p.lock weak := by
    cases weak with
    | none => rfl
    | some x =>
        have same : (p.construct bound).held x = p.held x := by
          rw [Peers.held, there (Nat.ne_of_lt (known x rfl)), Peers.held]
        simp only [Peers.lock, Option.filter, same]
  have link (member : Peer → Option ObjectId) (none_ : member ⟨false, false, none, none⟩ = none)
      (old : ∀ a o, p a = some o → Known bound (member o)) (a : ObjectId) :
      (p.construct bound).link a member = p.link a member := by
    by_cases same : a = bound
    · rw [same, Peers.link, Peers.link, fresh, Peers.construct, Function.update_self,
        Option.bind_some, none_]
      rfl
    · rw [Peers.link, there same, Peers.link]
      apply lock
      intro x linked
      rcases Option.bind_eq_some_iff.mp linked with ⟨o, here, member⟩
      exact old a o here x member
  have snooping := link Peer.snooping rfl fun a o here => (sound.bounded a o here).2.1
  have snoopedBy := link Peer.snoopedBy rfl fun a o here => (sound.bounded a o here).2.2
  have unchanged : (p.construct bound).chains = p.chains := by
    have newcomer (member : Peer → Option ObjectId) : p.link bound member = none := by
      rw [Peers.link, fresh]
      rfl
    have live {a : ObjectId} (old : a ≠ bound) : (p.construct bound).live a = p.live a := by
      simp only [Peers.live, Peers.held, Peers.gone, there old]
    apply Chains.ext
    · funext a
      simp only [Peers.chains, snoopedBy]
      by_cases same : a = bound
      · rw [same, newcomer, ite_self, ite_self]
      · rw [live same]
    · funext a
      simp only [Peers.chains, snooping]
      by_cases same : a = bound
      · rw [same, newcomer, ite_self, ite_self]
      · rw [live same]
  constructor
  · rw [unchanged]
    exact sound.chains
  · intro a held gone
    rw [snooping, snoopedBy]
    by_cases same : a = bound
    · rw [same, Peers.gone, Peers.construct, Function.update_self] at gone
      cases gone
    · simp only [Peers.held, Peers.gone, there same] at held gone
      exact sound.cleared a held gone
  · intro a o here
    have more : ∀ {weak}, Known bound weak → Known (bound + 1) weak := fun known x same =>
      Nat.lt_succ_of_lt (known x same)
    by_cases same : a = bound
    · rw [same, Peers.construct, Function.update_self] at here
      cases here
      exact ⟨same ▸ Nat.lt_succ_self a, known_none, known_none⟩
    · rw [there same] at here
      have old := sound.bounded a o here
      exact ⟨Nat.lt_succ_of_lt old.1, more old.2.1, more old.2.2⟩

end Operations

end Peers

end Kjdmud.Object
