import Kjdmud.Net.Socket.MudFrames
import Kjdmud.Vm.SaveVariable.Bytes
import Kjdmud.Vm.SaveVariable.Endings

/-!
# Values over a socket in MUD mode

A frame is delivered as it was sent when the reader takes its length for one of
its own, and when the parser comes to an end on its text.  `socket_write` asks
neither.
-/

namespace Kjdmud.Net.Socket

open Kjdmud.Scheduler (World)
open Kjdmud.SaveVariable (SaveValue writeRealSaveValue parseRestoreVariableTopLevel
  parseRestoreVariable stalls not_mem_ofInt quote closeBrace closeParen closeBracket)
open Kjdmud.Fuel (Converges)

/-- The value the read callback gets for a payload, where the parser comes to an
end. -/
def restored (payload : Str) (fuel : Nat) : Option SaveValue :=
  (parseRestoreVariableTopLevel fuel payload).map fun
    | .ok value => value
    | .error _ => .void

/-- The read callback gets these values, one after another, from a sequence of
reads. -/
def Delivered (chunks : List Str) (values : List SaveValue) : Prop :=
  List.Forall₂ (fun payload value => Converges (restored payload) value)
    (MudReader.reads {} chunks).1 values

/-- A sequence of reads delivers what was written for some values, each in a callback of
its own, and leaves the reader ready for the next frame. -/
structure Delivers (chunks : List Str) (vs : List SaveValue) : Prop where
  values : ∃ values, Delivered chunks values ∧
    List.Forall₂ (fun v value => Converges (restored (writeRealSaveValue v)) value) vs values
  ready : (MudReader.reads {} chunks).2 = some {}

/-- The frame of a value is one that the reader takes. -/
def Fits (v : SaveValue) : Prop :=
  (writeRealSaveValue v).length + 1 ≤ kMudMaxByteTransfer

/-! ## Whole frames -/

theorem nul_not_mem_toFixed (d : Double) : (0 : UInt8) ∉ d.toFixed := by
  have digits : ∀ n, (0 : UInt8) ∉ Decimal.ofNat n := fun n =>
    not_mem_ofInt (by decide) (Int.ofNat n)
  have sign : (0 : UInt8) ∉ (if d.signBit then str "-" else []) := by
    split <;> decide
  intro member
  apply absurd (List.mem_of_mem_take member)
  simp only [Double.fixedText]
  split
  · rw [List.mem_append, not_or]
    exact ⟨sign, by decide⟩
  · split
    · rw [List.mem_append, not_or]
      exact ⟨sign, by decide⟩
    · simp only [List.mem_append, List.mem_replicate, not_or]
      exact ⟨⟨⟨⟨sign, digits _⟩, by decide⟩, by simp⟩, digits _⟩

/-- A value's text does not end in a NUL. -/
theorem getLast?_writeRealSaveValue (v : SaveValue) :
    ∀ b ∈ (writeRealSaveValue v).getLast?, b ≠ 0 := by
  have inside : ∀ text : Str, (0 : UInt8) ∉ text → ∀ b ∈ text.getLast?, b ≠ 0 := by
    rintro text absent b last rfl
    exact absent (List.mem_of_getLast? last)
  have behind : ∀ (text : Str) (c : UInt8), c ≠ 0 → ∀ b ∈ (text ++ [c]).getLast?, b ≠ 0 := by
    intro text c nonzero b last
    rw [List.getLast?_concat] at last
    cases last
    exact nonzero
  cases v with
  | void => exact inside _ (by decide)
  | int i flag => exact inside _ (not_mem_ofInt (by decide) i.toInt)
  | float d => exact inside _ (nul_not_mem_toFixed d)
  | string s => exact behind _ quote (by decide)
  | array items flag =>
      have split : ∀ text : Str, text ++ [closeBrace, closeParen] =
          text ++ [closeBrace] ++ [closeParen] := by simp
      rw [writeRealSaveValue, split]
      exact behind _ closeParen (by decide)
  | mapping width entries extraColumns =>
      have split : ∀ text : Str, text ++ [closeBracket, closeParen] =
          text ++ [closeBracket] ++ [closeParen] := by simp
      rw [writeRealSaveValue, split]
      exact behind _ closeParen (by decide)
  | nil | symbol | object | closure | buffer =>
      intro b last
      cases last

/-- The payload of a whole frame is the text. -/
theorem payload_whole (v : SaveValue) :
    MudReader.payload (writeRealSaveValue v ++ [0]) = writeRealSaveValue v := by
  rw [MudReader.payload, List.rdropWhile_concat_pos _ _ _ (by simp),
    List.rdropWhile_eq_self_iff]
  intro nonempty
  have last := getLast?_writeRealSaveValue v _ (List.getLast?_eq_getLast_of_ne_nil nonempty)
  simpa using last

theorem announced_of_fits {v : SaveValue} (fits : Fits v) :
    announced v = (writeRealSaveValue v).length + 1 := by
  rw [announced, Nat.mod_eq_of_lt]
  exact lt_of_le_of_lt fits (by decide)

/-- A frame that fits is read whole. -/
theorem feed_framed {v : SaveValue} (fits : Fits v) (rest : Str) :
    MudReader.feed {} (framed v ++ rest) =
      (writeRealSaveValue v :: (MudReader.feed {} rest).1, (MudReader.feed {} rest).2) := by
  have accepted : ¬ (announced v = 0 ∨ kMudMaxByteTransfer < announced v) := by
    rw [announced_of_fits fits]
    rintro (none_ | large)
    · cases none_
    · exact absurd fits (Nat.not_le.mpr large)
  have whole : (writeRealSaveValue v ++ 0 :: rest) = (writeRealSaveValue v ++ [0]) ++ rest := by
    rw [List.append_assoc, List.singleton_append]
  have length : announced v = (writeRealSaveValue v ++ [0]).length := by
    rw [announced_of_fits fits, List.length_append, List.length_singleton]
  have done := iterate_framed v rest
  rw [if_neg accepted, whole, length, List.take_left, List.drop_left, payload_whole] at done
  rw [(MudReader.feed_of_iterate MudReader.partial_new _).1, done]

/-- The stream of some values. -/
def frames (vs : List SaveValue) : Str :=
  vs.flatMap framed

theorem feed_frames {vs : List SaveValue} (fits : ∀ v ∈ vs, Fits v) :
    MudReader.feed {} (frames vs) = (vs.map writeRealSaveValue, some {}) := by
  induction vs with
  | nil => rfl
  | cons v vs ih =>
      rw [List.forall_mem_cons] at fits
      have later := ih fits.2
      rw [frames, List.flatMap_cons, feed_framed fits.1, ← frames, later]
      rfl

/-- However the stream of some values is cut, it is delivered when every text has an
end. -/
theorem delivers_iff {vs : List SaveValue} (fits : ∀ v ∈ vs, Fits v) {chunks : List Str}
    (whole : chunks.flatten = frames vs) :
    Delivers chunks vs ↔
      ∀ v ∈ vs, ∃ value, Converges (restored (writeRealSaveValue v)) value := by
  have read : MudReader.reads {} chunks = (vs.map writeRealSaveValue, some {}) := by
    rw [MudReader.reads_eq_feed MudReader.partial_new, whole, feed_frames fits]
  constructor
  · rintro ⟨⟨values, delivered, restores⟩, ready⟩ v mem
    clear read whole fits delivered ready
    induction restores with
    | nil => cases mem
    | cons here _ ih =>
        rcases List.mem_cons.mp mem with rfl | later
        · exact ⟨_, here⟩
        · exact ih later
  · intro ends
    have restores : ∃ values, List.Forall₂
        (fun v value => Converges (restored (writeRealSaveValue v)) value) vs values := by
      clear read whole fits
      induction vs with
      | nil => exact ⟨[], .nil⟩
      | cons v vs ih =>
          rw [List.forall_mem_cons] at ends
          rcases ends.1 with ⟨value, here⟩
          rcases ih ends.2 with ⟨values, later⟩
          exact ⟨value :: values, .cons here later⟩
    rcases restores with ⟨values, restores⟩
    constructor
    · refine ⟨values, ?_, restores⟩
      rw [Delivered, read]
      exact List.forall₂_map_left_iff.mpr restores
    · rw [read]

/-- A frame that does not fit is not delivered. -/
theorem fits_of_delivers {v : SaveValue} {chunks : List Str}
    (whole : chunks.flatten = framed v) (delivers : Delivers chunks [v]) : Fits v := by
  have read : MudReader.reads {} chunks = MudReader.feed {} (framed v) := by
    rw [MudReader.reads_eq_feed MudReader.partial_new, whole]
  have fed := (MudReader.feed_of_iterate MudReader.partial_new (framed v)).1
  have done := iterate_framed v []
  rw [List.append_nil] at done
  rcases delivers.values with ⟨values, delivered, restores⟩
  have count : (MudReader.reads {} chunks).1.length = 1 :=
    delivered.length_eq.trans restores.length_eq.symm
  have ready := delivers.ready
  rw [read, fed] at count ready
  by_cases refused : announced v = 0 ∨ kMudMaxByteTransfer < announced v
  · rw [done, if_pos refused] at ready
    cases ready
  · rw [done, if_neg refused] at count ready
    -- Nothing is left behind the one frame.
    have none_ : MudReader.feed {}
        ((writeRealSaveValue v ++ [0]).drop (announced v)) = ([], some {}) := by
      apply Prod.ext
      · exact List.length_eq_zero_iff.mp (Nat.succ.inj count)
      · exact ready
    have taken := MudReader.eq_nil_of_feed_new none_
    rw [List.drop_eq_nil_iff, List.length_append, List.length_singleton] at taken
    rw [not_or] at refused
    exact taken.trans (Nat.not_lt.mp refused.2)

/-- The callback gets a value for exactly the texts of the values that do not stall. -/
theorem restored_iff (v : SaveValue) :
    (∃ value, Converges (restored (writeRealSaveValue v)) value) ↔ stalls v = false := by
  rw [← SaveVariable.parseRestoreVariable_ends_iff]
  constructor
  · rintro ⟨value, converges⟩
    rcases SaveVariable.parseRestoreVariable_decided (writeRealSaveValue v) with
      ends | diverges
    · exact ends
    · have silent := (SaveVariable.diverges_andThen
        (g := fun _ p => SaveVariable.Outcome.ok p.1) diverges).map fun
          | .ok value => value
          | .error _ => SaveValue.void
      exact absurd silent converges.not_diverges
  · rintro ⟨result, converges⟩
    cases result with
    | ok p =>
        exact ⟨_, (SaveVariable.converges_andThen converges (Converges.const _)).map _⟩
    | error e => exact ⟨_, (SaveVariable.converges_andThen_error converges).map _⟩

/-! ## The sender -/

/-- The number of bytes that the kernel took. -/
def Answers.taken (answers : Answers) : Nat :=
  match answers.returned with
  | .ok off => off
  | .error _ => 0

/-- A call of `socket_write` that sends: all of it, or some of it at once. -/
def Accepted (rc : Int) : Prop :=
  rc = SocketErr.success ∨ rc = SocketErr.eCallback

/-- A socket in MUD mode on which values are sent, and what is on the wire. -/
inductive Sent (world : World) (caller : Option ObjectId) (handle : Int) :
    Registry → List SaveValue → Str → Prop
  | start {r : Registry} {sock : LpcSocket} (keyed : r.Keyed)
      (found : r.find handle = some sock) (mud : sock.mode = .mud)
      (idle : sock.pendingWrite = []) : Sent world caller handle r [] []
  | write {r r' : Registry} {vs : List SaveValue} {wire : Str} {v : SaveValue}
      {answers : Answers} {rc : Int} (before : Sent world caller handle r vs wire)
      (done : socketWrite r world handle v none caller answers = (r', rc))
      (accepted : Accepted rc) :
      Sent world caller handle r' (vs ++ [v]) (wire ++ (framed v).take answers.taken)
  | flush {r : Registry} {vs : List SaveValue} {wire : Str} {sock : LpcSocket}
      (before : Sent world caller handle r vs wire) (found : r.find handle = some sock)
      (off : Nat) :
      Sent world caller handle (r.update (sock.flush off)) vs
        (wire ++ sock.pendingWrite.take off)

/-- What an accepted `socket_write` does in MUD mode: the frame is handed to the kernel,
and the socket keeps what the kernel did not take. -/
theorem socketWrite_accepted {r r' : Registry} {world : World} {handle : Int}
    {v : SaveValue} {address : Option Str} {caller : Option ObjectId} {answers : Answers}
    {rc : Int} {sock : LpcSocket} (keyed : r.Keyed) (found : r.find handle = some sock)
    (mud : sock.mode = .mud)
    (done : socketWrite r world handle v address caller answers = (r', rc))
    (accepted : Accepted rc) :
    sock.blocked = false ∧ r'.Keyed ∧
      ∃ sock', r'.find handle = some sock' ∧ sock'.mode = .mud ∧
        (sock' = sock ∧ (framed v).length ≤ answers.taken ∨
          sock'.blocked = true ∧ sock'.pendingWrite = (framed v).drop answers.taken) := by
  have changed : Changed world caller (.write handle v address) r r' rc :=
    socketWrite_changed keyed done
  have refused : ∀ code : Int, code ≠ SocketErr.success → code ≠ SocketErr.eCallback →
      (r, code) ≠ (r', rc) := by
    rintro code noSuccess noCallback same
    cases same
    rcases accepted with rfl | rfl
    · exact noSuccess rfl
    · exact noCallback rfl
  unfold socketWrite at done
  simp only [found, mud, if_true] at done
  split at done
  · exact absurd done (refused _ (by decide) (by decide))
  · rcases Registry.asOwner_cases done with ⟨rfl, rfl | rfl | rfl⟩ |
      ⟨same, found', owner, operated⟩
    · exact absurd rfl (refused _ (by decide) (by decide))
    · exact absurd rfl (refused _ (by decide) (by decide))
    · exact absurd rfl (refused _ (by decide) (by decide))
    · rw [found] at found'
      cases found'
      have handle_eq := keyed.of_find found
      simp only [mud, reduceCtorEq, if_false] at operated
      split at operated
      · exact absurd operated (refused _ (by decide) (by decide))
      · split at operated
        · exact absurd operated (refused _ (by decide) (by decide))
        · split at operated
          · exact absurd operated (refused _ (by decide) (by decide))
          · next free =>
              have unblocked := Bool.eq_false_of_not_eq_true free
              split at operated
              · next empty =>
                  simp [framed, htonl] at empty
              · split at operated
                · exact absurd operated (refused _ (by decide) (by decide))
                · exact absurd operated (refused _ (by decide) (by decide))
                · cases operated
                  rcases accepted with impossible | impossible <;> cases impossible
                · cases operated
                  rcases accepted with impossible | impossible <;> cases impossible
                · next off positive returned =>
                    have taken : answers.taken = off := by rw [Answers.taken, returned]
                    split at operated
                    · cases operated
                      have mem := (Registry.find_eq_some.mp found).1
                      rw [← handle_eq] at mem ⊢
                      refine ⟨unblocked, changed.keyed keyed, _,
                        Registry.find_update_self mem, rfl, .inr ⟨rfl, ?_⟩⟩
                      rw [taken]
                    · next whole =>
                        cases operated
                        refine ⟨unblocked, keyed, sock, found, mud, .inl ⟨rfl, ?_⟩⟩
                        rw [taken]
                        exact Nat.not_lt.mp whole

/-- What was sent is on the wire, or waits for the kernel. -/
structure Accounted (r : Registry) (handle : Int) (vs : List SaveValue) (wire : Str)
    (sock : LpcSocket) : Prop where
  keyed : r.Keyed
  found : r.find handle = some sock
  mud : sock.mode = .mud
  idle : sock.blocked = false → sock.pendingWrite = []
  stream : wire ++ sock.pendingWrite = frames vs

theorem Sent.accounted {world : World} {caller : Option ObjectId} {handle : Int}
    {r : Registry} {vs : List SaveValue} {wire : Str}
    (sent : Sent world caller handle r vs wire) :
    ∃ sock, Accounted r handle vs wire sock := by
  induction sent with
  | start keyed found mud idle =>
      exact ⟨_, keyed, found, mud, fun _ => idle, by rw [idle]; rfl⟩
  | @write r r' vs wire v answers rc before done accepted ih =>
      rcases ih with ⟨sock, accounted⟩
      rcases socketWrite_accepted accounted.keyed accounted.found accounted.mud done accepted
        with ⟨unblocked, keyed, sock', found', mud', outcome⟩
      have empty := accounted.idle unblocked
      have stream := accounted.stream
      rw [empty, List.append_nil] at stream
      have frames_eq : frames (vs ++ [v]) = wire ++ framed v := by
        simp [frames, stream]
      refine ⟨sock', keyed, found', mud', ?_, ?_⟩
      · rcases outcome with ⟨rfl, _⟩ | ⟨blocked, _⟩
        · exact fun _ => empty
        · intro unblocked'
          rw [blocked] at unblocked'
          cases unblocked'
      · rw [frames_eq, List.append_assoc]
        rcases outcome with ⟨rfl, whole⟩ | ⟨_, pending⟩
        · rw [empty, List.append_nil, List.take_of_length_le whole]
        · rw [pending, List.take_append_drop]
  | @flush r vs wire sock before found off ih =>
      rcases ih with ⟨sock', accounted⟩
      have same : some sock' = some sock := accounted.found.symm.trans found
      cases same
      have handle_eq := accounted.keyed.of_find found
      subst handle_eq
      refine ⟨sock.flush off, Registry.Keyed.update accounted.keyed found,
        Registry.find_update_self (Registry.find_eq_some.mp found).1, accounted.mud, ?_, ?_⟩
      · intro unblocked
        simpa [LpcSocket.flush] using unblocked
      · rw [← accounted.stream, List.append_assoc]
        simp only [LpcSocket.flush, List.take_append_drop]

/-! ## The law of the frames -/

/-- The frames of a stream in MUD mode.  A list of values whose frames fit is delivered
exactly when none of them stalls the parser; a value that `socket_write` accepts is
delivered exactly when its frame fits and it does not stall the parser; and the
cuts of a stream make no difference. -/
theorem mudFrames_law (world : World) (caller : Option ObjectId) (handle : Int) :
    (∀ {r : Registry} {vs : List SaveValue} {wire : Str} {sock : LpcSocket},
      Sent world caller handle r vs wire → r.find handle = some sock →
      sock.pendingWrite = [] → (∀ v ∈ vs, Fits v) → ∀ chunks : List Str,
      chunks.flatten = wire → (Delivers chunks vs ↔ ∀ v ∈ vs, stalls v = false)) ∧
    (∀ {r r' : Registry} {v : SaveValue} {address : Option Str} {answers : Answers} {rc : Int}
        {sock : LpcSocket}, r.Keyed → r.find handle = some sock → sock.mode = .mud →
      socketWrite r world handle v address caller answers = (r', rc) → Accepted rc →
      ((∀ chunks : List Str, chunks.flatten = framed v → Delivers chunks [v]) ↔
        Fits v ∧ stalls v = false)) ∧
    (∀ m : MudReader, m.Partial → ∀ chunks chunks' : List Str,
      chunks.flatten = chunks'.flatten → m.reads chunks = m.reads chunks') := by
  refine ⟨?_, ?_, ?_⟩
  · intro r vs wire sock sent found drained fits chunks whole
    rcases sent.accounted with ⟨sock', accounted⟩
    have same : some sock' = some sock := accounted.found.symm.trans found
    cases same
    have stream := accounted.stream
    rw [drained, List.append_nil] at stream
    rw [delivers_iff fits (whole.trans stream)]
    constructor
    · intro ends v mem
      exact (restored_iff v).mp (ends v mem)
    · intro passes v mem
      exact (restored_iff v).mpr (passes v mem)
  · intro r r' v address answers rc sock keyed found mud done accepted
    have single : ∀ chunks : List Str, chunks.flatten = framed v →
        chunks.flatten = frames [v] := by
      intro chunks whole
      rw [whole, frames, List.flatMap_singleton]
    constructor
    · intro delivers
      have one := delivers [framed v] (by simp)
      have fits := fits_of_delivers (by simp) one
      have ends := (delivers_iff (by simpa using fits) (single _ (by simp))).mp one
      exact ⟨fits, (restored_iff v).mp (ends v List.mem_cons_self)⟩
    · rintro ⟨fits, passes⟩ chunks whole
      apply (delivers_iff (by simpa using fits) (single chunks whole)).mpr
      simpa using (restored_iff v).mpr passes
  · intro m incomplete chunks chunks' same
    rw [MudReader.reads_eq_feed incomplete, MudReader.reads_eq_feed incomplete, same]

/-- A socket in MUD mode, connected, with nothing to flush. -/
def connected : LpcSocket where
  handle := 0
  fd := 4
  mode := .mud
  owner := some 1
  state := .dataXfer

theorem keyed_connected : (Registry.enter {} connected).Keyed := by
  apply Registry.Keyed.enter
  · constructor
    · intro h sock made
      cases made
    · intro h sock made
      cases made
  · rfl

/-- The kernel takes a whole frame. -/
theorem socketWrite_connected (text : Str) :
    socketWrite (Registry.enter {} connected) ⟨fun _ => .live, fun _ => none⟩ 0
        (.string text) none (some 1) { returned := .ok (framed (.string text)).length } =
      (Registry.enter {} connected, SocketErr.success) := by
  have found : (Registry.enter {} connected).find 0 = some connected :=
    Registry.find_enter_self
  have nonempty : ∃ n, (framed (.string text)).length = n + 1 := ⟨_, rfl⟩
  unfold socketWrite
  simp only [found]
  rw [if_pos (show connected.mode = .mud from rfl)]
  generalize framed (.string text) = frame at nonempty
  rcases nonempty with ⟨n, length⟩
  have filled : frame.isEmpty = false := by
    cases frame with
    | nil => cases length
    | cons b frame => rfl
  simp only [Registry.write, Registry.asOwner, found, filled, length]
  simp [connected, World.lock]

/-- A word is delivered, byte by byte. -/
theorem word_delivered :
    Delivers ((framed (.string (str "say"))).map fun b => [b]) [.string (str "say")] := by
  have sent := (mudFrames_law _ (some 1) 0).2.1 keyed_connected Registry.find_enter_self rfl
    (socketWrite_connected (str "say")) (.inl rfl)
  have fits : Fits (.string (str "say")) := by
    rw [Fits]
    decide
  exact sent.mpr ⟨fits, rfl⟩ _ (List.flatMap_singleton' _)

/-- Too many letters for a frame. -/
theorem not_fits_letters {n : Nat} (many : kMudMaxByteTransfer ≤ n) :
    ¬ Fits (.string (List.replicate n 97)) := by
  have plain : ∀ n, (List.replicate n (97 : UInt8)).flatMap SaveVariable.escapeByte =
      List.replicate n 97 := by
    intro n
    induction n with
    | zero => rfl
    | succ n ih =>
        rw [List.replicate_succ, List.flatMap_cons, ih]
        rfl
  have length : (writeRealSaveValue (.string (List.replicate n 97))).length = n + 2 := by
    simp [writeRealSaveValue, plain]
  rw [Fits, length]
  omega

/-- `socket_write` sends a million letters, and the reader does not take them. -/
theorem letters_not_delivered :
    ¬ ∀ {r r' : Registry} {world : World} {handle : Int} {v : SaveValue}
        {address : Option Str} {caller : Option ObjectId} {answers : Answers} {rc : Int}
        {sock : LpcSocket}, r.Keyed → r.find handle = some sock → sock.mode = .mud →
      socketWrite r world handle v address caller answers = (r', rc) → Accepted rc →
      ∀ chunks : List Str, chunks.flatten = framed v → Delivers chunks [v] := by
  intro claim
  have delivers := claim keyed_connected Registry.find_enter_self rfl
    (socketWrite_connected (List.replicate 1000000 97)) (.inl rfl) [framed _]
    (List.flatten_singleton)
  exact not_fits_letters le_rfl (fits_of_delivers List.flatten_singleton delivers)

end Kjdmud.Net.Socket
