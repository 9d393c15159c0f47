import Kjdmud.Lib.Runs
import Kjdmud.Net.Subnegotiation

/-!
# The output stream of a connection

`src/net/Connection.cpp`: the three places that call `rawWrite`.  The loops of `send` and of the
upgrade response write until everything is out or `rawWrite` reports that nothing more goes, and
then forget the rest; a pong is written in one call.  There is no output queue.  The loops are
taken apart at the calls of `rawWrite`, so that every moment of the stream is a state.
-/

namespace Kjdmud.Net.Output

open Kjdmud.Lib

/-- What a call of `rawWrite` reports. -/
inductive WriteResult
  /-- Some bytes went out. -/
  | wrote (n : Nat)
  | zero
  /-- `EAGAIN`. -/
  | wouldBlock
  /-- `EINTR`. -/
  | interrupted
  /-- Any other error. -/
  | failed
deriving DecidableEq

/-- The place that calls `rawWrite`. -/
inductive Site
  /-- `send`. -/
  | message
  /-- `tryCompleteWebSocketHandshake`. -/
  | response
  /-- `decodeWsFrames`. -/
  | pong
deriving DecidableEq

/-- Bytes handed to a place that writes, and the part of them that was written. -/
structure Sent where
  site : Site
  encoding : Str
  written : Str := []

/-- The members of `Connection` that writing uses, the bytes that reached the wire, and what was
handed to the places that write, newest first.  While `sending` a loop is at work on the newest. -/
structure State where
  isOpen : Bool := true
  useWebSocket : Bool := false
  wsHandshakeDone : Bool := false
  wsPendingSend : Str := []
  wire : Str := []
  sending : Bool := false
  sent : List Sent := []

/-- What can happen next. -/
inductive Op
  /-- `send` is called. -/
  | send (data : Str)
  /-- The loop of `send` calls `rawWrite`. -/
  | write (result : WriteResult)
  /-- An upgrade request is complete, and `sha1Base64` gave `accept` for its key. -/
  | upgrade (accept : Str)
  /-- The loop of the response calls `rawWrite`. -/
  | respond (result : WriteResult)
  /-- `decodeWsFrames` answers a ping. -/
  | pong (data : Str) (result : WriteResult)
  /-- The descriptor is closed. -/
  | close

namespace State

/-- The local `wire` of `send`: the complete encoding of the data. -/
def encode (s : State) (data : Str) : Str :=
  if s.useWebSocket && s.wsHandshakeDone then encodeWsFrame data else data

/-- A loop that writes is entered when there is something to write. -/
def begin (s : State) (site : Site) (encoding : Str) : State :=
  { s with sending := !encoding.isEmpty, sent := { site, encoding } :: s.sent }

/-- `send`. -/
def send (s : State) (data : Str) : State :=
  if !s.isOpen then s
  else if s.useWebSocket && !s.wsHandshakeDone then
    { s with wsPendingSend := s.wsPendingSend ++ data }
  else s.begin .message (s.encode data)

/-- The handshake is complete. -/
def upgraded (s : State) : State :=
  let ready := { s with wsHandshakeDone := true }
  if ready.wsPendingSend = [] then ready
  else { ready with wsPendingSend := [] }.send ready.wsPendingSend

/-- `total += n`: some bytes of the newest go out, and the loop ends with the last. -/
def put (s : State) (n : Nat) : Option State :=
  match s.sent with
  | [] => none
  | m :: older =>
      let rest := m.encoding.drop m.written.length
      if 0 < n ∧ n ≤ rest.length then
        some { s with
          wire := s.wire ++ rest.take n
          sending := n < rest.length
          sent := { m with written := m.written ++ rest.take n } :: older }
      else none

/-- A loop that writes is left. -/
def stop (s : State) : State :=
  { s with sending := false }

/-- One iteration of the loop of `send`. -/
def iterate (s : State) : WriteResult → Option State
  | .wrote n => s.put n
  | .interrupted => some s
  | .zero | .wouldBlock | .failed => some s.stop

/-- One iteration of the loop of the response; it goes on when nothing was written. -/
def iterateResponse (s : State) : WriteResult → Option State
  | .wrote n => (s.put n).map fun s => if s.sending then s else s.upgraded
  | .zero | .interrupted => some s
  | .wouldBlock | .failed => some s.stop

/-- The one call of `rawWrite` for a pong. -/
def writePong (s : State) (data : Str) : WriteResult → Option State
  | .wrote n => ((s.begin .pong (pong data)).put n).map stop
  | _ => some (s.begin .pong (pong data)).stop

/-- A loop of a place is at work. -/
def isAt (s : State) (site : Site) : Bool :=
  s.sending && (s.sent.head?.map Sent.site == some site)

/-- Execute one operation; `none` where it cannot happen. -/
def step (s : State) : Op → Option State
  | .send data => if s.sending then none else some (s.send data)
  | .write result => if s.isAt .message then s.iterate result else none
  | .upgrade accept =>
      if s.isOpen && !s.sending && s.useWebSocket && !s.wsHandshakeDone then
        some (s.begin .response (upgradeResponse accept))
      else none
  | .respond result => if s.isAt .response then s.iterateResponse result else none
  | .pong data result =>
      if s.isOpen && !s.sending && s.useWebSocket && s.wsHandshakeDone then
        s.writePong data result
      else none
  | .close => if s.sending then none else some { s with isOpen := false }

end State

/-- `target` is reached from `source` by executing `ops`. -/
abbrev Run : State → List Op → State → Prop :=
  Runs.Run fun s op t => s.step op = some t

/-- A new connection, with or without WebSocket framing. -/
def initial (useWebSocket : Bool) : State :=
  { useWebSocket }

/-! ## The law -/

/-- The complete encodings in call order. -/
def encodings (sent : List Sent) : Str :=
  (sent.reverse.map Sent.encoding).flatten

/-- Nothing is written behind something of which only a part was written. -/
def Orderly (sent : List Sent) : Prop :=
  sent.Pairwise fun later earlier =>
    earlier.written ≠ earlier.encoding → later.written = []

/-- What was handed to `send`. -/
def messages (sent : List Sent) : List Sent :=
  sent.filter fun m => m.site = .message

/-- The law of the stream: the wire holds a prefix of the encodings, and nothing is written behind
something incomplete. -/
structure StreamLaw (wire : Str) (sent : List Sent) : Prop where
  wire : wire <+: encodings sent
  orderly : Orderly sent

/-- The law holds of some of what was sent, at every moment of a run. -/
def Lawful (of : List Sent → List Sent) (source : State) (ops : List Op) : Prop :=
  ∀ front t, front <+: ops → Run source front t → StreamLaw t.wire (of t.sent)

/-! ## The results of the writes -/

/-- `rawWrite` reports that some bytes went out. -/
def Op.writes : Op → Bool
  | .write (.wrote _) | .respond (.wrote _) | .pong _ (.wrote _) => true
  | _ => false

/-- The result of `rawWrite` ends a loop before everything is out, or leaves a part of a pong. -/
def Op.cuts : Op → Bool
  | .write .zero | .write .wouldBlock | .write .failed => true
  | .respond .wouldBlock | .respond .failed => true
  | .pong data result => result ≠ .wrote (Net.pong data).length
  | _ => false

/-- No write behind one that cut something short gets a byte out. -/
def Calm (ops : List Op) : Prop :=
  ops.Pairwise fun earlier later => earlier.cuts = true → later.writes = false

instance (ops : List Op) : Decidable (Calm ops) :=
  inferInstanceAs (Decidable (List.Pairwise _ _))

/-! ## What a step is made of -/

/-- What may be handed to a place that writes: without WebSocket framing only messages, with it
first a response, and then no message that is not framed. -/
structure State.Allows (s : State) (site : Site) (encoding : Str) : Prop where
  plain : s.useWebSocket = false → site = .message
  frame : s.useWebSocket = true → site = .message → encoding.head? = some 0x81
  first : s.useWebSocket = true → s.wsHandshakeDone = false →
    site = .response ∧ encoding.head? = some 0x48

/-- The members that the stream depends on are the same. -/
structure State.SameStream (s t : State) : Prop where
  wire : t.wire = s.wire
  sending : t.sending = s.sending
  sent : t.sent = s.sent
  webSocket : t.useWebSocket = s.useWebSocket

/-- The small steps, with whether they cut something short and whether they write. -/
inductive Moves : State → State → Bool → Bool → Prop
  | keep {s t : State} (same : s.SameStream t)
      (done : t.wsHandshakeDone = s.wsHandshakeDone) : Moves s t false false
  | ready {s t : State} (same : s.SameStream t) (some_ : s.wire ≠ [])
      (done : t.wsHandshakeDone = true) : Moves s t false false
  | begin {s : State} {site : Site} {encoding : Str} (idle : s.sending = false)
      (allows : s.Allows site encoding) : Moves s (s.begin site encoding) false false
  | put {s t : State} {n : Nat} (sending : s.sending = true) (put : s.put n = some t) :
      Moves s t false true
  | stop (s : State) : Moves s s.stop s.sending false
  | trans {s t u : State} {cuts writes cuts' writes' : Bool} (first : Moves s t cuts writes)
      (second : Moves t u cuts' writes') (apart : cuts = true → writes' = false) :
      Moves s u (cuts || cuts') (writes || writes')

section Moves

variable {s t : State} {op : Op} {n : Nat} {result : WriteResult}

theorem Moves.refl (s : State) : Moves s s false false :=
  .keep ⟨rfl, rfl, rfl, rfl⟩ rfl

theorem put_eq_some (put : s.put n = some t) :
    ∃ m older, s.sent = m :: older ∧ 0 < n ∧ n ≤ (m.encoding.drop m.written.length).length ∧
      t = { s with
        wire := s.wire ++ (m.encoding.drop m.written.length).take n
        sending := n < (m.encoding.drop m.written.length).length
        sent := { m with
          written := m.written ++ (m.encoding.drop m.written.length).take n } :: older } := by
  unfold State.put at put
  split at put
  · cases put
  · next m older newest =>
      dsimp only at put
      split at put
      · next bound =>
          cases put
          exact ⟨m, older, newest, bound.1, bound.2, rfl⟩
      · cases put

theorem wire_of_put (put : s.put n = some t) : t.wire ≠ [] := by
  obtain ⟨m, older, newest, positive, bound, rfl⟩ := put_eq_some put
  intro none
  have length := congrArg List.length (List.append_eq_nil_iff.mp none).2
  rw [List.length_take_of_le bound, List.length_nil] at length
  exact Nat.ne_of_gt positive length

theorem moves_send (idle : s.sending = false) (data : Str) :
    Moves s (s.send data) false false := by
  unfold State.send
  split
  · exact .refl s
  · split
    · exact .keep ⟨rfl, rfl, rfl, rfl⟩ rfl
    · next free =>
        apply Moves.begin idle
        refine ⟨fun _ => rfl, fun webSocket _ => ?_, fun webSocket waits => ?_⟩
        · have done : s.wsHandshakeDone = true := by simpa [webSocket] using free
          simp [State.encode, webSocket, done, encodeWsFrame]
        · simp [webSocket, waits] at free

theorem moves_upgraded (idle : s.sending = false) (some_ : s.wire ≠ []) :
    Moves s s.upgraded false false := by
  have ready (pending : Str) :
      Moves s { s with wsHandshakeDone := true, wsPendingSend := pending } false false :=
    .ready ⟨rfl, rfl, rfl, rfl⟩ some_ rfl
  unfold State.upgraded
  dsimp only
  split
  · exact ready s.wsPendingSend
  · exact (ready []).trans (@moves_send { s with wsHandshakeDone := true, wsPendingSend := [] }
      idle _) Bool.noConfusion

theorem sending_of_isAt {site : Site} (isAt : s.isAt site = true) : s.sending = true :=
  (Bool.and_eq_true_iff.mp isAt).1

theorem moves_stop (sending : s.sending = true) : Moves s s.stop true false :=
  sending ▸ .stop s

theorem moves_respond (sending : s.sending = true) (step : s.iterateResponse result = some t) :
    Moves s t (Op.respond result).cuts (Op.respond result).writes := by
  cases result with
  | wrote n =>
      obtain ⟨middle, put, rfl⟩ := Option.map_eq_some_iff.mp step
      split
      · exact .put sending put
      · next idle =>
          exact (Moves.put sending put).trans
            (moves_upgraded (Bool.eq_false_iff.mpr idle) (wire_of_put put)) Bool.noConfusion
  | zero | interrupted =>
      cases step
      exact .refl s
  | wouldBlock | failed =>
      cases step
      exact moves_stop sending

theorem pong_ne_nil (data : Str) : pong data ≠ [] := by
  unfold pong
  split <;> exact List.cons_ne_nil _ _

theorem moves_pong {data : Str} (idle : s.sending = false) (webSocket : s.useWebSocket = true)
    (done : s.wsHandshakeDone = true) (step : s.writePong data result = some t) :
    Moves s t (Op.pong data result).cuts (Op.pong data result).writes := by
  have begun : Moves s (s.begin .pong (pong data)) false false := by
    apply Moves.begin idle
    constructor
    · simp [webSocket]
    · exact fun _ => Site.noConfusion
    · simp [done]
  have sending : (s.begin .pong (pong data)).sending = true := by
    simp [State.begin, pong_ne_nil]
  cases result with
  | wrote n =>
      obtain ⟨middle, put, rfl⟩ := Option.map_eq_some_iff.mp step
      have cuts : (Op.pong data (.wrote n)).cuts = middle.sending := by
        obtain ⟨m, older, newest, -, bound, rfl⟩ := put_eq_some put
        obtain ⟨rfl, rfl⟩ := List.cons.inj newest
        have same : n ≠ (pong data).length ↔ n < (pong data).length :=
          (Nat.lt_iff_le_and_ne.trans (and_iff_right bound)).symm
        simp [Op.cuts, same]
      rw [cuts]
      exact (begun.trans (.put sending put) Bool.noConfusion).trans (.stop middle)
        Bool.noConfusion
  | zero | wouldBlock | interrupted | failed =>
      cases step
      exact begun.trans (moves_stop sending) Bool.noConfusion

/-- Every operation is made of small steps. -/
theorem moves_step (step : s.step op = some t) : Moves s t op.cuts op.writes := by
  cases op with
  | send data =>
      rw [State.step] at step
      split at step
      · cases step
      · next idle =>
          cases step
          exact moves_send (Bool.eq_false_iff.mpr idle) data
  | write result =>
      rw [State.step] at step
      split at step
      · next isAt =>
          cases result with
          | wrote n => exact .put (sending_of_isAt isAt) step
          | interrupted =>
              cases step
              exact .refl s
          | zero | wouldBlock | failed =>
              cases step
              exact moves_stop (sending_of_isAt isAt)
      · cases step
  | upgrade accept =>
      rw [State.step] at step
      split at step
      · next free =>
          simp only [Bool.and_eq_true, Bool.not_eq_true'] at free
          cases step
          apply Moves.begin free.1.1.2
          constructor
          · simp [free.1.2]
          · exact fun _ => Site.noConfusion
          · exact fun _ _ => ⟨rfl, rfl⟩
      · cases step
  | respond result =>
      rw [State.step] at step
      split at step
      · next isAt => exact moves_respond (sending_of_isAt isAt) step
      · cases step
  | pong data result =>
      rw [State.step] at step
      split at step
      · next free =>
          simp only [Bool.and_eq_true, Bool.not_eq_true'] at free
          exact moves_pong free.1.1.2 free.1.2 free.2 step
      · cases step
  | close =>
      rw [State.step] at step
      split at step
      · cases step
      · cases step
        exact .keep ⟨rfl, rfl, rfl, rfl⟩ rfl

end Moves

/-! ## What the small steps do to the stream -/

/-- Something of which only a part was written. -/
def Incomplete (sent : List Sent) : Prop :=
  ∃ m ∈ sent, m.written ≠ m.encoding

/-- What no loop is at work on any more. -/
def State.finished (s : State) : List Sent :=
  if s.sending then s.sent.tail else s.sent

/-- The written parts in call order. -/
def writtens (sent : List Sent) : Str :=
  (sent.reverse.map Sent.written).flatten

/-- The wire holds the written parts, each the beginning of its encoding, and a loop is at work on
something incomplete. -/
structure Sound (s : State) : Prop where
  wire : s.wire = writtens s.sent
  parts : ∀ m ∈ s.sent, m.written <+: m.encoding
  busy : s.sending = true → ∃ m older, s.sent = m :: older ∧ m.written ≠ m.encoding

/-- What small steps do to the order of what was sent. -/
structure Effect (s t : State) (cuts writes : Bool) : Prop where
  sound : Sound t
  incomplete : Incomplete t.finished ↔ Incomplete s.finished ∨ cuts = true
  orderly : Orderly t.sent ↔ Orderly s.sent ∧ (writes = true → ¬ Incomplete s.finished)
  wire : t.wire = [] ↔ s.wire = [] ∧ writes = false

@[simp]
theorem writtens_cons (m : Sent) (older : List Sent) :
    writtens (m :: older) = writtens older ++ m.written := by
  simp [writtens]

@[simp]
theorem encodings_cons (m : Sent) (older : List Sent) :
    encodings (m :: older) = encodings older ++ m.encoding := by
  simp [encodings]

theorem incomplete_cons {m : Sent} {older : List Sent} :
    Incomplete (m :: older) ↔ m.written ≠ m.encoding ∨ Incomplete older := by
  simp [Incomplete]

theorem orderly_cons {m : Sent} {older : List Sent} :
    Orderly (m :: older) ↔ (m.written ≠ [] → ¬ Incomplete older) ∧ Orderly older := by
  rw [Orderly, List.pairwise_cons]
  apply and_congr_left'
  constructor
  · rintro behind some ⟨earlier, member, part⟩
    exact some (behind earlier member part)
  · intro complete earlier member part
    by_contra some
    exact complete some ⟨earlier, member, part⟩

section Effects

variable {s t u : State} {cuts writes cuts' writes' : Bool}

theorem Effect.trans (first : Effect s t cuts writes) (second : Effect t u cuts' writes')
    (apart : cuts = true → writes' = false) : Effect s u (cuts || cuts') (writes || writes') where
  sound := second.sound
  incomplete := by
    rw [second.incomplete, first.incomplete, Bool.or_eq_true, or_assoc]
  orderly := by
    rw [second.orderly, first.orderly, first.incomplete]
    cases cuts <;> cases writes' <;> simp_all [and_assoc]
  wire := by
    rw [second.wire, first.wire, Bool.or_eq_false_iff, and_assoc]

theorem Sound.same (sound : Sound s) (same : s.SameStream t) : Sound t where
  wire := by rw [same.wire, same.sent, sound.wire]
  parts := same.sent ▸ sound.parts
  busy := by
    rw [same.sending, same.sent]
    exact sound.busy

theorem effect_same (sound : Sound s) (same : s.SameStream t) : Effect s t false false where
  sound := sound.same same
  incomplete := by simp [State.finished, same.sending, same.sent]
  orderly := by simp [same.sent]
  wire := by simp [same.wire]

theorem effect_begin (sound : Sound s) (idle : s.sending = false) (site : Site)
    (encoding : Str) : Effect s (s.begin site encoding) false false where
  sound := by
    refine ⟨?_, ?_, ?_⟩
    · simpa [State.begin] using sound.wire
    · intro m member
      rcases List.mem_cons.mp member with rfl | older
      · exact List.nil_prefix
      · exact sound.parts m older
    · intro sending
      refine ⟨_, _, rfl, ?_⟩
      intro empty
      have none : encoding = [] := empty.symm
      simp [State.begin, none] at sending
  incomplete := by
    cases encoding with
    | nil => simp [State.finished, State.begin, idle, incomplete_cons]
    | cons => simp [State.finished, State.begin, idle]
  orderly := by simp [State.begin, orderly_cons]
  wire := by simp [State.begin]

theorem effect_put (sound : Sound s) (sending : s.sending = true) {n : Nat}
    (put : s.put n = some t) : Effect s t false true := by
  have some_ := wire_of_put put
  obtain ⟨m, older, newest, positive, bound, rfl⟩ := put_eq_some put
  have behind : s.finished = older := by simp [State.finished, sending, newest]
  obtain ⟨rest, whole⟩ := sound.parts m (by rw [newest]; exact List.mem_cons_self)
  have left : m.encoding.drop m.written.length = rest := by rw [← whole, List.drop_left]
  rw [left] at bound some_ ⊢
  have grown : m.written ++ rest.take n ≠ [] := by
    intro none
    have length := congrArg List.length none
    rw [List.length_append, List.length_take_of_le bound, List.length_nil] at length
    omega
  have complete_iff : m.written ++ rest.take n = m.encoding ↔ ¬ n < rest.length := by
    rw [← whole, List.append_cancel_left_eq]
    constructor
    · intro same more
      have length := congrArg List.length same
      rw [List.length_take_of_le bound] at length
      exact Nat.ne_of_lt more length
    · intro all
      exact List.take_of_length_le (Nat.not_lt.mp all)
  refine ⟨⟨?_, ?_, ?_⟩, ?_, ?_, ?_⟩
  · simp [sound.wire, newest]
  · intro other member
    rcases List.mem_cons.mp member with rfl | before
    · rw [← whole]
      exact (List.prefix_append_right_inj _).mpr (List.take_prefix n rest)
    · exact sound.parts other (by rw [newest]; exact List.mem_cons_of_mem m before)
  · intro more
    refine ⟨_, _, rfl, fun complete => ?_⟩
    exact complete_iff.mp complete (by simpa using more)
  · rw [behind]
    by_cases more : n < rest.length
    · simp [State.finished, more]
    · have complete := complete_iff.mpr more
      simp [State.finished, more, incomplete_cons, complete]
  · rw [orderly_cons, behind, newest, orderly_cons]
    constructor
    · rintro ⟨complete, orderly⟩
      exact ⟨⟨fun _ => complete grown, orderly⟩, fun _ => complete grown⟩
    · rintro ⟨⟨_, orderly⟩, complete⟩
      exact ⟨fun _ => complete rfl, orderly⟩
  · exact iff_of_false some_ fun both => Bool.noConfusion both.2

theorem effect_stop (sound : Sound s) : Effect s s.stop s.sending false where
  sound := ⟨sound.wire, sound.parts, nofun⟩
  incomplete := by
    cases sending : s.sending with
    | false => simp [State.finished, State.stop, sending]
    | true =>
        obtain ⟨m, older, newest, part⟩ := sound.busy sending
        simp [State.finished, State.stop, newest, incomplete_cons, part]
  orderly := by simp [State.stop]
  wire := by simp [State.stop]

/-- What the small steps do. -/
theorem Moves.effect (moves : Moves s t cuts writes) (sound : Sound s) :
    Effect s t cuts writes := by
  induction moves with
  | keep same | ready same => exact effect_same sound same
  | begin idle => exact effect_begin sound idle _ _
  | put sending put => exact effect_put sound sending put
  | stop => exact effect_stop sound
  | trans _ _ apart first second =>
      exact (first sound).trans (second (first sound).sound) apart

end Effects

/-! ## Runs -/

section Runs

variable {useWebSocket : Bool} {ops front : List Op} {s t : State}

theorem sound_initial (useWebSocket : Bool) : Sound (initial useWebSocket) :=
  ⟨rfl, nofun, nofun⟩

/-- What the results of the writes say about a run. -/
theorem Run.effect (run : Run (initial useWebSocket) ops s) :
    Sound s ∧ (Incomplete s.finished ↔ ∃ op ∈ ops, op.cuts = true) ∧
      (Orderly s.sent ↔ Calm ops) := by
  induction run with
  | nil =>
      refine ⟨sound_initial useWebSocket, ?_, ?_⟩
      · simp [initial, State.finished, Incomplete]
      · exact iff_of_true List.Pairwise.nil List.Pairwise.nil
  | snoc run step ih =>
      obtain ⟨sound, incomplete, orderly⟩ := ih
      have effect := (moves_step step).effect sound
      refine ⟨effect.sound, ?_, ?_⟩
      · rw [effect.incomplete, incomplete]
        simp [or_and_right, exists_or]
      · rw [effect.orderly, orderly, incomplete, Calm, Calm, List.pairwise_append]
        simp only [List.pairwise_singleton, List.mem_singleton, forall_eq, true_and]
        apply and_congr_right'
        constructor
        · intro quiet earlier member cuts
          exact Bool.eq_false_iff.mpr fun writes => quiet writes ⟨earlier, member, cuts⟩
        · rintro quiet writes ⟨earlier, member, cuts⟩
          exact absurd writes (Bool.eq_false_iff.mp (quiet earlier member cuts))

/-- Behind something incomplete nothing is written. -/
theorem writtens_of_orderly {sent : List Sent} (orderly : Orderly sent)
    (parts : ∀ m ∈ sent, m.written <+: m.encoding) :
    writtens sent <+: encodings sent := by
  induction sent with
  | nil => exact List.prefix_refl _
  | cons m older ih =>
      obtain ⟨behind, rest⟩ := orderly_cons.mp orderly
      have before := ih rest fun other member => parts other (List.mem_cons_of_mem m member)
      rw [writtens_cons, encodings_cons]
      by_cases fresh : m.written = []
      · rw [fresh, List.append_nil]
        exact before.trans (List.prefix_append _ _)
      · have complete : older.map Sent.written = older.map Sent.encoding := by
          apply List.map_congr_left
          intro earlier member
          by_contra part
          exact behind fresh ⟨earlier, member, part⟩
        have whole : writtens older = encodings older := by
          rw [writtens, encodings, List.map_reverse, complete, ← List.map_reverse]
        rw [whole]
        exact (List.prefix_append_right_inj _).mpr (parts m List.mem_cons_self)

/-- The order of everything that was written is right exactly in the calm runs. -/
theorem lawful_iff (run : Run (initial useWebSocket) ops s) :
    Lawful id (initial useWebSocket) ops ↔ Calm ops := by
  constructor
  · intro lawful
    exact run.effect.2.2.mp (lawful ops s (List.prefix_refl _) run).orderly
  · intro calm front t isFront reached
    obtain ⟨sound, -, orderly⟩ := Run.effect reached
    have ordered := orderly.mpr (calm.sublist isFront.sublist)
    refine ⟨?_, ordered⟩
    rw [sound.wire]
    exact writtens_of_orderly ordered sound.parts

end Runs

/-! ## What was handed to `send` -/

section Messages

variable {useWebSocket : Bool} {ops front : List Op} {s t : State} {op : Op}

/-- Without WebSocket framing nothing but `send` writes. -/
structure Plain (s : State) : Prop where
  plain : s.useWebSocket = false
  messages : ∀ m ∈ s.sent, m.site = .message

theorem Moves.plain {cuts writes : Bool} (moves : Moves s t cuts writes) (plain : Plain s) :
    Plain t := by
  induction moves with
  | keep same | ready same =>
      exact ⟨same.webSocket.trans plain.plain, same.sent ▸ plain.messages⟩
  | begin idle allows =>
      refine ⟨plain.plain, fun m member => ?_⟩
      rcases List.mem_cons.mp member with rfl | older
      · exact allows.plain plain.plain
      · exact plain.messages m older
  | put sending put =>
      obtain ⟨m, older, newest, -, -, rfl⟩ := put_eq_some put
      refine ⟨plain.plain, fun other member => ?_⟩
      have all := plain.messages
      rw [newest] at all
      rcases List.mem_cons.mp member with rfl | before
      · exact all m List.mem_cons_self
      · exact all other (List.mem_cons_of_mem m before)
  | stop => exact ⟨plain.plain, plain.messages⟩
  | trans _ _ _ first second => exact second (first plain)

theorem Run.plain (run : Run (initial false) ops s) : Plain s := by
  induction run with
  | nil => exact ⟨rfl, nofun⟩
  | snoc _ step ih => exact (moves_step step).plain ih

/-- With WebSocket framing the response is written first, and what `send` gets is framed. -/
structure Upgrading (s : State) : Prop where
  sound : Sound s
  webSocket : s.useWebSocket = true
  head : ∀ c ∈ s.wire.head?, c = 0x48
  frames : ∀ m ∈ messages s.sent, m.encoding.head? = some 0x81
  before : s.wsHandshakeDone = false →
    ∀ m ∈ s.sent, m.site = .response ∧ m.encoding.head? = some 0x48
  after : s.wsHandshakeDone = true → s.wire ≠ []

theorem Upgrading.put (upgrading : Upgrading s) (sending : s.sending = true) {n : Nat}
    (put : s.put n = some t) : Upgrading t := by
  have sound := (effect_put upgrading.sound sending put).sound
  have some_ := wire_of_put put
  obtain ⟨m, older, newest, positive, bound, rfl⟩ := put_eq_some put
  have accounted := upgrading.sound.wire
  rw [newest, writtens_cons] at accounted
  have before := upgrading.before
  have frames := upgrading.frames
  rw [newest] at before frames
  refine ⟨sound, upgrading.webSocket, fun c first => ?_, fun other member => ?_,
    fun waits other member => ?_, fun _ => some_⟩
  · cases empty : s.wire with
    | nil =>
        -- the first bytes are those of the response
        rw [empty] at accounted
        have nothing : m.written = [] := (List.append_eq_nil_iff.mp accounted.symm).2
        have waits : s.wsHandshakeDone = false := by
          apply Bool.eq_false_iff.mpr
          intro done
          exact upgrading.after done empty
        have starts := (before waits m List.mem_cons_self).2
        simp only [empty, nothing, List.length_nil, List.drop_zero, List.nil_append] at first
        cases response : m.encoding with
        | nil =>
            rw [response] at starts
            cases starts
        | cons d rest =>
            rw [response] at first starts
            obtain ⟨k, rfl⟩ := Nat.exists_eq_succ_of_ne_zero (Nat.ne_of_gt positive)
            cases starts
            simpa using first.symm
    | cons d wire =>
        have held := upgrading.head
        simp only [empty, List.cons_append, List.head?_cons] at first held
        exact held c first
  · obtain ⟨inside, isMessage⟩ := List.mem_filter.mp member
    rcases List.mem_cons.mp inside with rfl | behind
    · exact frames m (List.mem_filter.mpr ⟨List.mem_cons_self, isMessage⟩)
    · exact frames other (List.mem_filter.mpr ⟨List.mem_cons_of_mem m behind, isMessage⟩)
  · rcases List.mem_cons.mp member with rfl | behind
    · exact before waits m List.mem_cons_self
    · exact before waits other (List.mem_cons_of_mem m behind)

theorem Moves.upgrading {cuts writes : Bool} (moves : Moves s t cuts writes)
    (upgrading : Upgrading s) : Upgrading t := by
  have sound := (moves.effect upgrading.sound).sound
  induction moves with
  | keep same done =>
      refine ⟨sound, same.webSocket.trans upgrading.webSocket, same.wire ▸ upgrading.head,
        same.sent ▸ upgrading.frames, ?_, ?_⟩
      · rw [done, same.sent]
        exact upgrading.before
      · rw [done, same.wire]
        exact upgrading.after
  | ready same some_ done =>
      refine ⟨sound, same.webSocket.trans upgrading.webSocket, same.wire ▸ upgrading.head,
        same.sent ▸ upgrading.frames, fun waits => ?_, fun _ => same.wire ▸ some_⟩
      rw [done] at waits
      cases waits
  | begin idle allows =>
      refine ⟨sound, upgrading.webSocket, upgrading.head, fun m member => ?_,
        fun waits m member => ?_, upgrading.after⟩
      · obtain ⟨inside, isMessage⟩ := List.mem_filter.mp member
        rcases List.mem_cons.mp inside with rfl | older
        · exact allows.frame upgrading.webSocket (by simpa using isMessage)
        · exact upgrading.frames m (List.mem_filter.mpr ⟨older, isMessage⟩)
      · rcases List.mem_cons.mp member with rfl | older
        · exact allows.first upgrading.webSocket waits
        · exact upgrading.before waits m older
  | put sending put => exact upgrading.put sending put
  | stop =>
      exact ⟨sound, upgrading.webSocket, upgrading.head, upgrading.frames, upgrading.before,
        upgrading.after⟩
  | trans one _ _ first second =>
      have middle := first upgrading (one.effect upgrading.sound).sound
      exact second middle sound

theorem Run.upgrading (run : Run (initial true) ops s) : Upgrading s := by
  induction run with
  | nil => exact ⟨sound_initial true, rfl, nofun, nofun, nofun, nofun⟩
  | snoc _ step ih => exact (moves_step step).upgrading ih

/-- The wire is empty exactly as long as no write gets a byte out. -/
theorem Run.wire_eq_nil_iff (run : Run (initial useWebSocket) ops s) :
    s.wire = [] ↔ ∀ op ∈ ops, op.writes = false := by
  induction run with
  | nil => exact iff_of_true rfl nofun
  | snoc run step ih =>
      rw [((moves_step step).effect (Run.effect run).1).wire, ih]
      simp [or_imp, forall_and]

theorem head_encodings {d : UInt8} {sent : List Sent}
    (starts : ∀ m ∈ sent, m.encoding.head? = some d) : ∀ c ∈ (encodings sent).head?, c = d := by
  induction sent with
  | nil => exact nofun
  | cons m older ih =>
      intro c first
      have before := ih fun other member => starts other (List.mem_cons_of_mem m member)
      rw [encodings_cons, List.head?_append] at first
      cases found : (encodings older).head? with
      | some c' =>
          rw [found] at first
          exact before c (found.trans first)
      | none =>
          rw [found, starts m List.mem_cons_self] at first
          exact (Option.some.inj first).symm

/-- A prefix of frames that starts like a response is empty. -/
theorem Upgrading.wire_eq_nil (upgrading : Upgrading s)
    (isPrefix : s.wire <+: encodings (messages s.sent)) : s.wire = [] := by
  cases starts : s.wire with
  | nil => rfl
  | cons c wire =>
      have response : c = 0x48 := upgrading.head c (by rw [starts]; rfl)
      have first : (encodings (messages s.sent)).head? = some c := by
        obtain ⟨rest, whole⟩ := isPrefix
        rw [← whole, starts]
        rfl
      have framed := head_encodings upgrading.frames c first
      rw [response] at framed
      cases framed

/-- The law of what was handed to `send` holds at every moment exactly in the calm runs in which,
with WebSocket framing, no byte goes out. -/
theorem lawful_messages_iff (run : Run (initial useWebSocket) ops s) :
    Lawful messages (initial useWebSocket) ops ↔
      Calm ops ∧ (useWebSocket = true → ∀ op ∈ ops, op.writes = false) := by
  cases useWebSocket with
  | false =>
      have same {front : List Op} {t : State} (reached : Run (initial false) front t) :
          messages t.sent = t.sent :=
        List.filter_eq_self.mpr fun m member => by simpa using (Run.plain reached).messages m member
      rw [← lawful_iff run]
      simp only [Bool.false_eq_true, false_implies, and_true]
      constructor
      · intro lawful front t isFront reached
        exact same reached ▸ lawful front t isFront reached
      · intro lawful front t isFront reached
        rw [same reached]
        exact lawful front t isFront reached
  | true =>
      constructor
      · intro lawful
        have law := lawful ops s (List.prefix_refl _) run
        have nothing := run.wire_eq_nil_iff.mp ((Run.upgrading run).wire_eq_nil law.wire)
        refine ⟨?_, fun _ => nothing⟩
        exact List.pairwise_of_forall_mem_list fun _ _ later member _ => nothing later member
      · rintro ⟨calm, silent⟩ front t isFront reached
        have quiet : ∀ op ∈ front, op.writes = false := fun op member =>
          silent rfl op (isFront.subset member)
        refine ⟨?_, ((lawful_iff run).mpr calm front t isFront reached).orderly.filter _⟩
        rw [(Run.wire_eq_nil_iff reached).mpr quiet]
        exact List.nil_prefix

/-- The bytes on the wire are at every moment a prefix of the encodings of what was handed to
`send`, and no message is written behind an incomplete one, exactly if no write behind a cut gets
a byte out and no byte of a response or a pong goes out, without which nothing is framed.  With the
responses and the pongs among the encodings, the first is enough. -/
theorem streamLaw_iff (run : Run (initial useWebSocket) ops s) :
    (Lawful messages (initial useWebSocket) ops ↔
      Calm ops ∧ (useWebSocket = true → ∀ op ∈ ops, op.writes = false)) ∧
    (Lawful id (initial useWebSocket) ops ↔ Calm ops) :=
  ⟨lawful_messages_iff run, lawful_iff run⟩

end Messages

/-! ## Full writes -/

/-- The connection of the other models, with what reached the wire. -/
def State.connection (s : State) : Connection :=
  { useWebSocket := s.useWebSocket
    wsHandshakeDone := s.wsHandshakeDone
    wsPendingSend := s.wsPendingSend
    written := s.wire }

/-- One full write ends the loop. -/
theorem step_fullWrite (s : State) {data : Str} (nonempty : s.encode data ≠ []) :
    (s.begin .message (s.encode data)).step (.write (.wrote (s.encode data).length)) =
      some { s with
        wire := s.wire ++ s.encode data
        sending := false
        sent := ⟨.message, s.encode data, s.encode data⟩ :: s.sent } := by
  have positive := List.length_pos_iff.mpr nonempty
  simp [State.step, State.isAt, State.begin, State.iterate, State.put, nonempty, positive]

/-- What the connection model sends at once is the encoding. -/
theorem connection_send {s : State}
    (free : ¬ (s.useWebSocket = true ∧ s.wsHandshakeDone = false)) (data : Str) :
    s.connection.send data = { s.connection with written := s.wire ++ s.encode data } := by
  by_cases framed : s.useWebSocket = true
  · have done : s.wsHandshakeDone = true := by
      simpa [framed] using free
    simp [Connection.send, State.connection, State.encode, framed, done]
  · simp [Connection.send, State.connection, State.encode, framed]

/-- Where every write is full, `send` does what the connection model says. -/
theorem send_connection (s : State) (opened : s.isOpen = true) (idle : s.sending = false)
    (data : Str) :
    ∃ ops t, Run s (.send data :: ops) t ∧ t.sending = false ∧
      t.connection = s.connection.send data := by
  have begins : s.step (.send data) = some (s.send data) := by
    simp [State.step, idle]
  by_cases held : s.useWebSocket = true ∧ s.wsHandshakeDone = false
  · refine ⟨[], s.send data, .cons begins (.nil _), ?_, ?_⟩
    · simp [State.send, opened, held, idle]
    · simp [State.send, opened, held, State.connection, Connection.send]
  · have sends : s.send data = s.begin .message (s.encode data) := by
      simp only [State.send, opened, Bool.not_true, Bool.false_eq_true, if_false]
      rw [if_neg (by simpa using held)]
    rw [connection_send held]
    rw [sends] at begins
    by_cases empty : s.encode data = []
    · refine ⟨[], s.begin .message (s.encode data), .cons begins (.nil _), ?_, ?_⟩
      · simp [State.begin, empty]
      · simp [State.begin, State.connection, empty]
    · exact ⟨_, _, .cons begins (.cons (step_fullWrite s empty) (.nil _)), rfl, rfl⟩

/-! ## Two messages -/

/-- A short write, an interrupted one and the rest, and then a whole message. -/
theorem streamLaw_shortWrite : ∃ s : State,
    Run (initial false) [.send (str "ab"), .write (.wrote 1), .write .interrupted,
        .write (.wrote 1), .send (gmcpBytes (str "x")), .write (.wrote 6)] s ∧
      Lawful messages (initial false) [.send (str "ab"), .write (.wrote 1),
        .write .interrupted, .write (.wrote 1), .send (gmcpBytes (str "x")),
        .write (.wrote 6)] := by
  have run : ∃ s : State, Run (initial false) [.send (str "ab"), .write (.wrote 1),
      .write .interrupted, .write (.wrote 1), .send (gmcpBytes (str "x")),
      .write (.wrote 6)] s :=
    ⟨_, .cons rfl <| .cons rfl <| .cons rfl <| .cons rfl <| .cons rfl <| .cons rfl <|
      .nil _⟩
  rcases run with ⟨s, run⟩
  exact ⟨s, run, (streamLaw_iff run).1.mpr ⟨by decide, nofun⟩⟩

/-- The descriptor takes one byte of a message and would block; the next message
goes out behind that byte. -/
theorem streamLaw_cut :
    ¬ ∀ (useWebSocket : Bool) (ops : List Op) (s : State),
      Run (initial useWebSocket) ops s → StreamLaw s.wire (messages s.sent) := by
  intro law
  have run : ∃ s : State, Run (initial false) [.send (str "ab"), .write (.wrote 1),
      .write .wouldBlock, .send (str "c"), .write (.wrote 1)] s ∧
      s.wire = str "ac" ∧ encodings (messages s.sent) = str "abc" :=
    ⟨_, .cons rfl <| .cons rfl <| .cons rfl <| .cons rfl <| .cons rfl <| .nil _,
      by decide, by decide⟩
  rcases run with ⟨s, run, wire, sent⟩
  have broken := (law false _ s run).wire
  rw [wire, sent] at broken
  exact absurd broken (by decide)

end Kjdmud.Net.Output
