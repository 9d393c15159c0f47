import Mathlib.Data.List.Induction
import Mathlib.Tactic.Common
import Kjdmud.Net.Telnet

/-!
# What a telnet stream consists of

A stream is a sequence of data bytes, escaped IACs, commands, negotiations and
subnegotiations, the last of them possibly unfinished.  The state machine turns
the data bytes and the escaped IACs into data, and nothing else, and it applies
the negotiations and the finished subnegotiations to the options in the order
they come.
-/

namespace Kjdmud.Net

/-- `appendIacEscaped`, one byte at a time. -/
def escapeIac (b : UInt8) : Str :=
  if b = kIac then [kIac, kIac] else [b]

/-- The byte of a negotiation's verb. -/
def Verb.byte : Verb → UInt8
  | .will => kWill
  | .wont => kWont
  | .do_ => kDo
  | .dont => kDont

/-- The state in which a negotiation waits for its option. -/
def Verb.state : Verb → TelnetState
  | .will => .will
  | .wont => .wont
  | .do_ => .do_
  | .dont => .dont

/-- The bytes that, behind an IAC, do not end a two-byte command. -/
def isIntroducer (b : UInt8) : Bool :=
  b = kIac || b = kWill || b = kWont || b = kDo || b = kDont || b = kSb

/-- A complete item of a telnet stream. -/
inductive TelnetItem
  | data (b : UInt8) (plain : b ≠ kIac)
  /-- A doubled IAC. -/
  | escaped
  /-- A two-byte command. -/
  | command (b : UInt8) (other : isIntroducer b = false)
  | negotiation (verb : Verb) (option : UInt8)
  | subnegotiation (content : Str)
  /-- A subnegotiation cut short by an IAC that neither ends it nor is
  escaped. -/
  | aborted (content : Str) (b : UInt8) (ends : b ≠ kSe) (escapes : b ≠ kIac)

/-- The unfinished item at the end of a stream. -/
inductive TelnetTail
  | none
  | iac
  | negotiation (verb : Verb)
  | subnegotiation (content : Str)
  | subnegotiationIac (content : Str)

/-- An item on the wire. -/
def TelnetItem.bytes : TelnetItem → Str
  | .data b _ => [b]
  | .escaped => [kIac, kIac]
  | .command b _ => [kIac, b]
  | .negotiation verb option => [kIac, verb.byte, option]
  | .subnegotiation content => [kIac, kSb] ++ content.flatMap escapeIac ++ [kIac, kSe]
  | .aborted content b _ _ => [kIac, kSb] ++ content.flatMap escapeIac ++ [kIac, b]

/-- An unfinished item on the wire. -/
def TelnetTail.bytes : TelnetTail → Str
  | .none => []
  | .iac => [kIac]
  | .negotiation verb => [kIac, verb.byte]
  | .subnegotiation content => [kIac, kSb] ++ content.flatMap escapeIac
  | .subnegotiationIac content => [kIac, kSb] ++ content.flatMap escapeIac ++ [kIac]

/-- The data an item stands for. -/
def TelnetItem.plain : TelnetItem → Str
  | .data b _ => [b]
  | .escaped => [kIac]
  | _ => []

/-- What an item does to the options. -/
def TelnetItem.apply (options : TelnetOptions) : TelnetItem → TelnetOptions
  | .negotiation verb option => (handleNegotiation options verb option).1
  | .subnegotiation content => handleSubnegotiation options content
  | _ => options

/-- The state in which a tail leaves the machine. -/
def TelnetTail.state : TelnetTail → TelnetState
  | .none => .data
  | .iac => .iac
  | .negotiation verb => verb.state
  | .subnegotiation _ => .sb
  | .subnegotiationIac _ => .sbIac

/-- The content of an unfinished subnegotiation is in `sbBuffer_`. -/
def TelnetTail.Held (telnet : Telnet) : TelnetTail → Prop
  | .subnegotiation content | .subnegotiationIac content => telnet.sbBuffer = content
  | _ => True

/-! ## The machine on items -/

@[simp]
theorem process_nil (telnet : Telnet) : telnet.process [] = { telnet } := rfl

theorem process_cons (telnet : Telnet) (b : UInt8) (raw : Str) :
    telnet.process (b :: raw) =
      { telnet := ((telnet.step b).telnet.process raw).telnet
        plain := (telnet.step b).plain ++ ((telnet.step b).telnet.process raw).plain
        sends := (telnet.step b).sends ++ ((telnet.step b).telnet.process raw).sends } := rfl

/-- Inside a subnegotiation, escaped content goes to `sbBuffer_`. -/
theorem process_content (telnet : Telnet) (inside : telnet.state = .sb) (content : Str) :
    telnet.process (content.flatMap escapeIac) =
      { telnet := { telnet with sbBuffer := telnet.sbBuffer ++ content } } := by
  induction content generalizing telnet with
  | nil =>
      rw [List.append_nil]
      rfl
  | cons b content inductionHypothesis =>
      rw [List.flatMap_cons, Telnet.process_append]
      by_cases iac : b = kIac
      · subst iac
        have doubled : telnet.process (escapeIac kIac) =
            { telnet := { telnet with sbBuffer := telnet.sbBuffer ++ [kIac] } } := by
          have notEnd : kIac ≠ kSe := by decide
          simp [escapeIac, process_cons, Telnet.step, inside, notEnd]
        rw [doubled, inductionHypothesis _ (by exact inside)]
        simp
      · have single : telnet.process (escapeIac b) =
            { telnet := { telnet with sbBuffer := telnet.sbBuffer ++ [b] } } := by
          simp [escapeIac, process_cons, Telnet.step, inside, iac]
        rw [single, inductionHypothesis _ (by exact inside)]
        simp

/-- From the data state, `IAC SB` and escaped content fill `sbBuffer_`. -/
theorem process_opened (telnet : Telnet) (ready : telnet.state = .data) (content : Str) :
    telnet.process ([kIac, kSb] ++ content.flatMap escapeIac) =
      { telnet := { telnet with state := .sb, sbBuffer := content } } := by
  have opened : telnet.process [kIac, kSb] =
      { telnet := { telnet with state := .sb, sbBuffer := [] } } := by
    simp [process_cons, Telnet.step, ready, Telnet.command, show kSb ≠ kIac by decide,
      show kSb ≠ kWill by decide, show kSb ≠ kWont by decide, show kSb ≠ kDo by decide,
      show kSb ≠ kDont by decide]
  rw [Telnet.process_append, opened, process_content _ rfl]
  rfl

/-- A two-byte command takes the machine back to data. -/
theorem command_of_not_introducer (telnet : Telnet) {b : UInt8}
    (other : isIntroducer b = false) :
    telnet.command b = { telnet := { telnet with state := .data } } := by
  simp only [isIntroducer, Bool.or_eq_false_iff, decide_eq_false_iff_not] at other
  obtain ⟨⟨⟨⟨⟨h1, h2⟩, h3⟩, h4⟩, h5⟩, h6⟩ := other
  simp only [Telnet.command, h1, h2, h3, h4, h5, h6, if_false]

/-- The verb of a negotiation takes the machine to its state. -/
theorem command_verb (telnet : Telnet) (verb : Verb) :
    telnet.command verb.byte = { telnet := { telnet with state := verb.state } } := by
  cases verb <;> simp [Telnet.command, Verb.byte, Verb.state, kWill, kWont, kDo, kDont, kIac]

/-- The option ends a negotiation. -/
theorem step_verb (telnet : Telnet) (verb : Verb) (waits : telnet.state = verb.state)
    (option : UInt8) : telnet.step option = telnet.negotiate verb option := by
  cases verb <;> simp only [Verb.state] at waits <;> simp only [Telnet.step, waits]

/-- An item takes the machine from data back to data, contributes its data and
is applied to the options. -/
theorem process_item (telnet : Telnet) (ready : telnet.state = .data) (item : TelnetItem) :
    (telnet.process item.bytes).plain = item.plain ∧
      (telnet.process item.bytes).telnet.state = .data ∧
      (telnet.process item.bytes).telnet.options = item.apply telnet.options := by
  cases item with
  | data b plain =>
      simp [TelnetItem.bytes, TelnetItem.plain, TelnetItem.apply, process_cons, Telnet.step,
        ready, plain]
  | escaped =>
      simp [TelnetItem.bytes, TelnetItem.plain, TelnetItem.apply, process_cons, Telnet.step,
        ready, Telnet.command]
  | command b other =>
      simp [TelnetItem.bytes, TelnetItem.plain, TelnetItem.apply, process_cons, Telnet.step,
        ready, command_of_not_introducer _ other]
  | negotiation verb option =>
      have opened : telnet.step kIac = { telnet := { telnet with state := .iac } } := by
        simp [Telnet.step, ready]
      have verbed : ({ telnet with state := .iac } : Telnet).step verb.byte =
          { telnet := { telnet with state := verb.state } } := by
        simp [Telnet.step, command_verb]
      have ended := step_verb { telnet with state := verb.state } verb rfl option
      simp [TelnetItem.bytes, TelnetItem.plain, TelnetItem.apply, process_cons, opened,
        verbed, ended, Telnet.negotiate]
  | subnegotiation content =>
      rw [TelnetItem.bytes, Telnet.process_append, process_opened telnet ready]
      simp [TelnetItem.plain, TelnetItem.apply, process_cons, Telnet.step]
  | aborted content b ends escapes =>
      rw [TelnetItem.bytes, Telnet.process_append, process_opened telnet ready]
      simp [TelnetItem.plain, TelnetItem.apply, process_cons, Telnet.step, ends, escapes]

/-- A tail contributes nothing and leaves the machine in its state. -/
theorem process_tail (telnet : Telnet) (ready : telnet.state = .data) (tail : TelnetTail) :
    (telnet.process tail.bytes).plain = [] ∧
      (telnet.process tail.bytes).telnet.state = tail.state ∧
      (telnet.process tail.bytes).telnet.options = telnet.options ∧
      tail.Held (telnet.process tail.bytes).telnet := by
  cases tail with
  | none => simp [TelnetTail.bytes, TelnetTail.state, TelnetTail.Held, ready]
  | iac => simp [TelnetTail.bytes, TelnetTail.state, TelnetTail.Held, process_cons,
      Telnet.step, ready]
  | negotiation verb =>
      simp [TelnetTail.bytes, TelnetTail.state, TelnetTail.Held, process_cons, Telnet.step,
        ready, command_verb]
  | subnegotiation content =>
      rw [TelnetTail.bytes, process_opened telnet ready]
      simp [TelnetTail.state, TelnetTail.Held]
  | subnegotiationIac content =>
      rw [TelnetTail.bytes, Telnet.process_append, process_opened telnet ready]
      simp [TelnetTail.state, TelnetTail.Held, process_cons, Telnet.step]

/-- The machine on a whole stream: its data are those of its items, and its
items are applied to the options in order. -/
theorem process_items (telnet : Telnet) (ready : telnet.state = .data)
    (items : List TelnetItem) (tail : TelnetTail) :
    (telnet.process (items.flatMap TelnetItem.bytes ++ tail.bytes)).plain =
        items.flatMap TelnetItem.plain ∧
      (telnet.process (items.flatMap TelnetItem.bytes ++ tail.bytes)).telnet.options =
        items.foldl TelnetItem.apply telnet.options := by
  induction items generalizing telnet with
  | nil =>
      have last := process_tail telnet ready tail
      exact ⟨last.1, last.2.2.1⟩
  | cons item items inductionHypothesis =>
      obtain ⟨plain, state, options⟩ := process_item telnet ready item
      have later := inductionHypothesis _ state
      rw [List.flatMap_cons, List.append_assoc, Telnet.process_append]
      simp only [plain, later.1, later.2, options, List.flatMap_cons, List.foldl_cons,
        and_self]

/-! ## Every stream consists of items -/

/-- One more byte completes the tail or extends it. -/
theorem extend_tail (tail : TelnetTail) (b : UInt8) :
    (∃ item : TelnetItem, tail.bytes ++ [b] = item.bytes) ∨
      ∃ longer : TelnetTail, tail.bytes ++ [b] = longer.bytes := by
  cases tail with
  | none =>
      by_cases iac : b = kIac
      · exact .inr ⟨.iac, by simp [TelnetTail.bytes, iac]⟩
      · exact .inl ⟨.data b iac, rfl⟩
  | iac =>
      cases other : isIntroducer b with
      | false => exact .inl ⟨.command b other, rfl⟩
      | true =>
          simp only [isIntroducer, Bool.or_eq_true, decide_eq_true_eq] at other
          rcases other with ((((rfl | rfl) | rfl) | rfl) | rfl) | rfl
          · exact .inl ⟨.escaped, rfl⟩
          · exact .inr ⟨.negotiation .will, rfl⟩
          · exact .inr ⟨.negotiation .wont, rfl⟩
          · exact .inr ⟨.negotiation .do_, rfl⟩
          · exact .inr ⟨.negotiation .dont, rfl⟩
          · exact .inr ⟨.subnegotiation [], rfl⟩
  | negotiation verb => exact .inl ⟨.negotiation verb b, rfl⟩
  | subnegotiation content =>
      by_cases iac : b = kIac
      · exact .inr ⟨.subnegotiationIac content, by rw [iac]; rfl⟩
      · exact .inr ⟨.subnegotiation (content ++ [b]), by simp [TelnetTail.bytes, escapeIac, iac]⟩
  | subnegotiationIac content =>
      by_cases ends : b = kSe
      · exact .inl ⟨.subnegotiation content, by simp [TelnetTail.bytes, TelnetItem.bytes, ends]⟩
      · by_cases escapes : b = kIac
        · exact .inr ⟨.subnegotiation (content ++ [kIac]), by
            simp [TelnetTail.bytes, escapeIac, escapes]⟩
        · exact .inl ⟨.aborted content b ends escapes, by
            simp [TelnetTail.bytes, TelnetItem.bytes]⟩

/-- Every stream is a sequence of items and an unfinished one. -/
theorem exists_items (raw : Str) :
    ∃ (items : List TelnetItem) (tail : TelnetTail),
      raw = items.flatMap TelnetItem.bytes ++ tail.bytes := by
  induction raw using List.reverseRecOn with
  | nil => exact ⟨[], .none, rfl⟩
  | append_singleton raw b inductionHypothesis =>
      obtain ⟨items, tail, rfl⟩ := inductionHypothesis
      rw [List.append_assoc]
      rcases extend_tail tail b with ⟨item, whole⟩ | ⟨longer, whole⟩
      · refine ⟨items ++ [item], .none, ?_⟩
        rw [whole, List.flatMap_append, List.append_assoc]
        simp [TelnetTail.bytes]
      · exact ⟨items, longer, by rw [whole]⟩

/-! ## Bytes that are no commands, and those that are -/

/-- Without an IAC every byte is data. -/
theorem process_of_not_mem (telnet : Telnet) (ready : telnet.state = .data) {raw : Str}
    (fresh : kIac ∉ raw) : telnet.process raw = { telnet, plain := raw } := by
  induction raw with
  | nil => rfl
  | cons b raw inductionHypothesis =>
      have plain : b ≠ kIac := fun equal => fresh (equal ▸ List.mem_cons_self)
      have later := inductionHypothesis fun mem => fresh (List.mem_cons_of_mem _ mem)
      simp [process_cons, Telnet.step, ready, plain, later]

/-- An IAC is data only when it is doubled, so at most half of them are. -/
theorem count_plain_le (telnet : Telnet) (raw : Str) :
    2 * (telnet.process raw).plain.count kIac ≤
      raw.count kIac + if telnet.state = .iac then 1 else 0 := by
  induction raw generalizing telnet with
  | nil => simp
  | cons b raw inductionHypothesis =>
      have later := inductionHypothesis (telnet.step b).telnet
      rw [process_cons]
      simp only [List.count_append, List.count_cons]
      cases state : telnet.state with
      | data =>
          by_cases iac : b = kIac
          · simp [Telnet.step, state, iac] at later ⊢
            omega
          · simp [Telnet.step, state, iac] at later ⊢
            omega
      | iac =>
          by_cases iac : b = kIac
          · simp [Telnet.step, state, iac, Telnet.command] at later ⊢
            omega
          · simp only [Telnet.step, state, Telnet.command, iac, if_false] at later ⊢
            split_ifs at later ⊢ <;> simp_all <;> omega
      | will | wont | do_ | dont =>
          simp [Telnet.step, state, Telnet.negotiate] at later ⊢
          omega
      | sb =>
          by_cases iac : b = kIac
          · simp [Telnet.step, state, iac] at later ⊢
            omega
          · simp [Telnet.step, state, iac] at later ⊢
            omega
      | sbIac =>
          simp only [Telnet.step, state] at later ⊢
          split_ifs at later ⊢ <;> simp_all <;> omega

end Kjdmud.Net
