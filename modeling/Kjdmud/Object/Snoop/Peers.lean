import Kjdmud.Object.Snoop
import Kjdmud.Lib.Chains

/-!
# What snooping is about

The flags and the two links of an object, and what the operations do to them, beside everything
else in the object.
-/

namespace Kjdmud.Object

/-! ## Peers -/

/-- What snooping is about in an object. -/
structure Peer where
  destructed : Bool
  freed : Bool
  snooping : Option ObjectId
  snoopedBy : Option ObjectId

/-- The peer of an object. -/
def LpcObject.peer (o : LpcObject) : Peer where
  destructed := o.destructed
  freed := o.freed
  snooping := o.snooping
  snoopedBy := o.snoopedBy

/-- The peers of a world. -/
abbrev Peers := ObjectId → Option Peer

def World.peers (w : World) : Peers :=
  fun id => (w.objects id).map LpcObject.peer

namespace Peers

/-- The memory of an object is there. -/
def held (p : Peers) (a : ObjectId) : Bool :=
  (p a).any fun o => !o.freed

/-- The object is destructed, or does not exist. -/
def gone (p : Peers) (a : ObjectId) : Bool :=
  (p a).all Peer.destructed

def live (p : Peers) (a : ObjectId) : Bool :=
  p.held a && !p.gone a

/-- `weak_ptr::lock`. -/
def lock (p : Peers) (weak : Option ObjectId) : Option ObjectId :=
  weak.filter p.held

/-- A link of an object. -/
def link (p : Peers) (a : ObjectId) (member : Peer → Option ObjectId) : Option ObjectId :=
  p.lock ((p a).bind member)

/-- Change the peer that a link leads to. -/
def change (p : Peers) (weak : Option ObjectId) (f : Peer → Peer) : Peers :=
  fun a => if weak = some a then (p a).map f else p a

end Peers

/-- `setSnooping`. -/
def Peer.setSnooping (victim : Option ObjectId) (o : Peer) : Peer :=
  { o with snooping := victim }

/-- `setSnoopedBy`. -/
def Peer.setSnoopedBy (snooper : Option ObjectId) (o : Peer) : Peer :=
  { o with snoopedBy := snooper }

/-- What a destruction does to an object. -/
def Peer.retire (o : Peer) : Peer :=
  { o with snooping := none, destructed := true }

/-! ## The peers of a world -/

section World

variable (w : World)

theorem held_peers (a : ObjectId) : w.peers.held a = w.held a := by
  rw [Peers.held, World.peers, Option.any_map]
  rfl

theorem gone_peers (a : ObjectId) : w.peers.gone a = w.isDestructed a := by
  rw [Peers.gone, World.peers, Option.all_map]
  rfl

theorem live_peers (a : ObjectId) : w.peers.live a = w.live a := by
  rw [Peers.live, held_peers, gone_peers, World.live]

theorem lock_peers (weak : Option ObjectId) : w.peers.lock weak = w.lock weak := by
  rw [Peers.lock, World.lock]
  congr 1
  funext a
  exact held_peers w a

theorem snooping_peers (a : ObjectId) :
    w.link a LpcObject.snooping = w.peers.link a Peer.snooping := by
  rw [Peers.link, lock_peers, World.link, World.peers]
  cases w.objects a <;> rfl

theorem snoopedBy_peers (a : ObjectId) :
    w.link a LpcObject.snoopedBy = w.peers.link a Peer.snoopedBy := by
  rw [Peers.link, lock_peers, World.link, World.peers]
  cases w.objects a <;> rfl

variable {change : LpcObject → LpcObject} {f : Peer → Peer}

theorem peers_modify (commutes : ∀ o, (change o).peer = f o.peer) (id : ObjectId) :
    (w.modify id change).peers = w.peers.change (some id) f := by
  funext a
  simp only [World.peers, World.modify, Peers.change, Option.some.injEq]
  by_cases same : id = a
  · subst same
    rw [Function.update_self, if_pos rfl, Option.map_map, Option.map_map]
    congr 1
    funext o
    exact commutes o
  · rw [Function.update_of_ne (Ne.symm same), if_neg same]

theorem Peers.change_none (p : Peers) : p.change none f = p := by
  funext a
  exact if_neg (by simp)

theorem Peers.change_id (p : Peers) (weak : Option ObjectId) : p.change weak (fun o => o) = p := by
  funext a
  rw [Peers.change, Option.map_id']
  exact ite_self _

theorem peers_modifyLinked (commutes : ∀ o, (change o).peer = f o.peer)
    (weak : Option ObjectId) : (w.modifyLinked weak change).peers = w.peers.change weak f := by
  cases weak with
  | none => exact (Peers.change_none w.peers).symm
  | some id => exact peers_modify w commutes id

/-- A change of other members. -/
theorem peers_modify_other (keeps : ∀ o, (change o).peer = o.peer) (id : ObjectId) :
    (w.modify id change).peers = w.peers :=
  (peers_modify w (f := fun o => o) keeps id).trans (Peers.change_id w.peers (some id))

theorem peers_modifyLinked_other (keeps : ∀ o, (change o).peer = o.peer)
    (weak : Option ObjectId) : (w.modifyLinked weak change).peers = w.peers := by
  cases weak with
  | none => rfl
  | some id => exact peers_modify_other w keeps id

end World

/-! ## The operations on peers -/

namespace Peers

/-- The end of a snoop. -/
def stop (p : Peers) (by_ : ObjectId) : Peers :=
  (p.change (p.link by_ Peer.snooping) (Peer.setSnoopedBy none)).change (some by_)
    (Peer.setSnooping none)

/-- The end of being snooped. -/
def close (p : Peers) (ob : ObjectId) : Peers :=
  (p.change (p.link ob Peer.snoopedBy) (Peer.setSnooping none)).change (some ob)
    (Peer.setSnoopedBy none)

/-- The two links of a snoop. -/
def join (p : Peers) (by_ victim : ObjectId) : Peers :=
  (p.change (some victim) (Peer.setSnoopedBy (some by_))).change (some by_)
    (Peer.setSnooping (some victim))

/-- A snoop, after the old links of both objects are dropped. -/
def start (p : Peers) (by_ victim : ObjectId) : Peers :=
  let p := p.change (p.link by_ Peer.snooping) (Peer.setSnoopedBy none)
  let p := p.change (p.link victim Peer.snoopedBy) (Peer.setSnooping none)
  p.join by_ victim

/-- A destruction. -/
def retire (p : Peers) (obj : ObjectId) : Peers :=
  (p.change (p.link obj Peer.snooping) (Peer.setSnoopedBy none)).change (some obj) Peer.retire

/-- The memory of an object is released. -/
def release (p : Peers) (obj : ObjectId) : Peers :=
  p.change (some obj) fun o => { o with freed := true }

/-- A new object. -/
def construct (p : Peers) (id : ObjectId) : Peers :=
  Function.update p id (some ⟨false, false, none, none⟩)

end Peers

section Operations

variable (w : World)

theorem peers_stopSnoop (by_ : ObjectId) : (stopSnoop w by_).peers = w.peers.stop by_ := by
  rw [stopSnoop, peers_modify _ (f := Peer.setSnooping none) (fun _ => rfl),
    peers_modifyLinked _ (f := Peer.setSnoopedBy none) (fun _ => rfl), snooping_peers]
  rfl

theorem peers_closeLinks (ob : ObjectId) : (closeLinks w ob).peers = w.peers.close ob := by
  rw [closeLinks, peers_modify _ (f := Peer.setSnoopedBy none) (fun _ => rfl),
    peers_modifyLinked _ (f := Peer.setSnooping none) (fun _ => rfl), snoopedBy_peers]
  rfl

theorem peers_retire (obj : ObjectId) : (retire w obj).peers = w.peers.retire obj := by
  have erased : (retire w obj).peers = (detach w obj).peers := by
    have kept : (eraseFilename (detach w obj) obj).peers = (detach w obj).peers := by
      unfold eraseFilename
      cases (detach w obj).filename obj <;> rfl
    exact kept
  have flags : ((w.modifyLinked (w.link obj LpcObject.snooping) fun o =>
      { o with snoopedBy := none }).modify obj fun o =>
        { o with snooping := none, destructed := true, replacedProgramName := none }).peers =
      w.peers.retire obj := by
    rw [peers_modify _ (f := Peer.retire) (fun _ => rfl),
      peers_modifyLinked _ (f := Peer.setSnoopedBy none) (fun _ => rfl), snooping_peers]
    rfl
  rw [erased, detach, peers_modify_other, peers_modifyLinked_other]
  · exact flags
  all_goals
    intro o
    rfl

theorem peers_release (obj : ObjectId) : (release w obj).peers = w.peers.release obj :=
  peers_modify w (fun _ => rfl) obj

theorem peers_construct (filename : Str) :
    (w.construct filename).peers = w.peers.construct w.next := by
  funext a
  simp only [World.peers, World.construct, Peers.construct]
  by_cases same : a = w.next
  · rw [same, Function.update_self, Function.update_self]
    rfl
  · rw [Function.update_of_ne same, Function.update_of_ne same]
    rfl

theorem peers_unlinkShadow (obj : ObjectId) : (unlinkShadow w obj).peers = w.peers := by
  rw [unlinkShadow, peers_modify_other, peers_modifyLinked_other, peers_modifyLinked_other]
  all_goals
    intro o
    rfl

theorem peers_cutBelow (top : ObjectId) : (Shadow.State.cutBelow w top).peers = w.peers := by
  rw [Shadow.State.cutBelow, peers_modify_other, peers_modifyLinked_other]
  all_goals
    intro o
    rfl

theorem peers_clearShadow (ob : ObjectId) : (clearShadow w ob).peers = w.peers :=
  peers_modify_other w (by intro o; rfl) ob

theorem peers_linkShadow (self victim : ObjectId) : (linkShadow w self victim).peers = w.peers := by
  rw [linkShadow, peers_modify_other, peers_modify_other]
  all_goals
    intro o
    rfl

theorem peers_removeShadow (ob : ObjectId) : (removeShadow w ob).peers = w.peers := by
  unfold removeShadow
  by_cases alone : ((w.link ob LpcObject.shadowedBy).isNone &&
      (w.link ob LpcObject.shadowing).isNone) = true
  · simp only [if_pos alone]
  · simp only [if_neg alone]
    rw [peers_modify_other, peers_modifyLinked_other, peers_modifyLinked_other]
    all_goals
      intro o
      rfl

theorem peers_moveObject (item dest : ObjectId) : (moveObject w item dest).peers = w.peers := by
  unfold moveObject
  by_cases refused : (decide (item = dest) || (w.objects item).all LpcObject.destructed ||
      (w.objects dest).all LpcObject.destructed) = true
  · simp only [if_pos refused]
  · simp only [if_neg refused]
    rw [peers_modify_other, peers_modify_other, peers_modifyLinked_other]
    all_goals
      intro o
      rfl

theorem peers_startSnoop (by_ victim : ObjectId) :
    (startSnoop w by_ victim).peers = w.peers.start by_ victim := by
  rw [startSnoop, peers_modify _ (f := Peer.setSnooping (some victim)) (fun _ => rfl),
    peers_modify _ (f := Peer.setSnoopedBy (some by_)) (fun _ => rfl),
    peers_modifyLinked _ (f := Peer.setSnooping none) (fun _ => rfl), snoopedBy_peers,
    peers_modifyLinked _ (f := Peer.setSnoopedBy none) (fun _ => rfl), snooping_peers]
  rfl

end Operations

end Kjdmud.Object
