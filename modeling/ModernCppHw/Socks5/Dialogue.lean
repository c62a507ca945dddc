import ModernCppHw.Lib.Simulation
import ModernCppHw.Socks5.Traffic

/-! What the server does for one client, as an automaton. It moves by the completions of
the client's own requests, and knows nothing of memory, events, descriptors or other
clients. -/

set_option autoImplicit false

namespace ModernCppHw.Socks5

/-- What one direction of a relayed connection waits for: bytes to pass on, or the end
of a payload of which some bytes were taken. -/
inductive Leg where
  | reading
  | writing (payload : List Byte) (taken : Nat)
  deriving DecidableEq

/-- What a connection does, with the bytes of its client that are held and those of its
own last message that are unsent. -/
inductive Stage where
  | absent
  | reading (phase : Phase) (held : List Byte)
  | selecting (unsent held : List Byte)
  | refusing (unsent : List Byte)
  | stalled
  | connecting (address : SockAddr) (held : List Byte)
  | granting (unsent held : List Byte)
  | relaying (legs : Direction → Leg)
  | draining (direction : Direction) (leg : Leg)
  | leaked
  | gone

/-- How opening a socket ends, without the descriptor's number. -/
inductive SocketOutcome where
  | created
  | error
  | otherException
  deriving DecidableEq

def SocketResult.outcome : SocketResult → SocketOutcome
  | .created _ => .created
  | .error _ => .error
  | .otherException => .otherException

/-- What a connection learns: that it is accepted, or how a request of it completed. -/
inductive Stimulus where
  | accepted
  | completed (type : EventType) (res : Int) (data : List Byte) (lookup : List Byte → Hostent)
      (socket : SocketOutcome)

def EventType.isRead : EventType → Bool
  | .clientRead | .destinationRead => true
  | .clientAccept | .clientWrite | .destinationConnect | .destinationWrite => false

/-- A read that succeeds brings as many bytes as it says, and connecting brings none. -/
def Stimulus.Counted : Stimulus → Prop
  | .accepted => True
  | .completed type res data _ _ =>
      (type.isRead = true → res < 0 ∨ res = data.length) ∧
        (type = .destinationConnect → res ≤ 0)

/-- The completion moves bytes. -/
def Stimulus.Moves : Stimulus → Prop
  | .accepted => False
  | .completed _ res _ _ _ => 0 < res

def Direction.other : Direction → Direction
  | .up => .down
  | .down => .up

/-- The direction that requests of the type belong to while relaying. -/
def EventType.direction? : EventType → Option Direction
  | .clientRead | .destinationWrite => some .up
  | .destinationRead | .clientWrite => some .down
  | .clientAccept | .destinationConnect => none

namespace Leg

def type (direction : Direction) : Leg → EventType
  | .reading => direction.readType
  | .writing _ _ => direction.writeType

def payload : Leg → List Byte
  | .reading => []
  | .writing payload _ => payload

/-- An error or, of a read, the end of the stream ends the connection. -/
def Ends (res : Int) (leg : Leg) : Prop := res < 0 ∨ (res = 0 ∧ leg = .reading)

instance (res : Int) (leg : Leg) : Decidable (leg.Ends res) := by
  unfold Ends
  infer_instance

def next (res : Nat) (data : List Byte) : Leg → Leg
  | .reading => .writing data 0
  | .writing payload taken =>
      if taken + res = payload.length then .reading else .writing payload (taken + res)

end Leg

namespace Stage

/-- Relaying begins. Where bytes of the client are held back, an empty payload goes up. -/
def begin (held : List Byte) : Direction → Leg
  | .up => if held = [] then .reading else .writing [] 0
  | .down => .reading

def ofDecision (ndebug : Bool) (lookup : List Byte → Hostent) (socket : SocketOutcome) :
    Decision → Option Stage
  | .wait phase rest => some (.reading phase rest)
  | .close => some .leaked
  | .selectMethod rest => some (.selecting [0x05, 0x00] rest)
  | .refuseMethods _ => some (.refusing [0x05, 0x00])
  | .refuse code => some (.refusing (failMessage code))
  | .connect destination rest =>
      let resolved := destination.resolve fun name => lookup (cString name)
      match resolved.sockAddr? destination.port with
      | some address =>
          match socket with
          | .created => some (.connecting address rest)
          | .error => none
          | .otherException => some (.refusing (failMessage 0x01))
      | none =>
          if resolved = .failure then some (.refusing (failMessage 0x04))
          else if ndebug then some .stalled else none

/-- What a completion makes of a stage; nothing where no such request is in flight, and
where the server faults. -/
def next (ndebug : Bool) : Stage → Stimulus → Option Stage
  | .absent, .accepted => some (.reading .greeting [])
  | .reading phase held, .completed .clientRead res data lookup socket =>
      if res ≤ 0 then some .leaked
      else ofDecision ndebug lookup socket (decode phase (held ++ data))
  | .selecting unsent held, .completed .clientWrite res _ lookup socket =>
      if res < 0 then some .leaked
      else if res.toNat < unsent.length then some (.selecting (unsent.drop res.toNat) held)
      else ofDecision ndebug lookup socket (decode .request held)
  | .refusing _, .completed .clientWrite _ _ _ _ => some .leaked
  | .connecting address held, .completed .destinationConnect res _ _ _ =>
      if res < 0 then some .gone else some (.granting (Call.grantMessage address) held)
  | .granting unsent held, .completed .clientWrite res _ _ _ =>
      if res < 0 then some .gone
      else if res.toNat < unsent.length then some (.granting (unsent.drop res.toNat) held)
      else some (.relaying (begin held))
  | .relaying legs, .completed type res data _ _ => do
      let direction ← type.direction?
      if (legs direction).type direction ≠ type then none
      else if (legs direction).Ends res then
        some (.draining direction.other (legs direction.other))
      else some (.relaying (Function.update legs direction ((legs direction).next res.toNat data)))
  | .draining direction leg, .completed type _ _ _ _ =>
      if leg.type direction = type then some .gone else none
  | _, _ => none

/-- What a write in flight finds to send. One that goes on finds the beginning of its
payload again. -/
def sends : Stage → EventType → List Byte
  | .selecting unsent _, _ | .granting unsent _, _ | .refusing unsent, _ => unsent
  | .relaying legs, type =>
      match type.direction? with
      | some direction => (legs direction).payload
      | none => []
  | .draining _ leg, _ => leg.payload
  | _, _ => []

end Stage

/-- Bytes that crossed one of a connection's sockets. -/
structure Exchange where
  type : EventType
  bytes : List Byte
  deriving DecidableEq

def Transfer.exchange (transfer : Transfer) : Exchange := ⟨transfer.type, transfer.bytes⟩

/-- The bytes a completion without an error moves. -/
def Stage.exchanged (stage : Stage) : Stimulus → List Exchange
  | .accepted => []
  | .completed type res data _ _ =>
      if res < 0 then []
      else if type.isRead then [⟨type, data⟩]
      else [⟨type, (stage.sends type).take res.toNat⟩]

structure Dialogue where
  stage : Stage
  exchanges : List Exchange

/-- All that a server does for one client. -/
def dialogue (ndebug : Bool) : Transition.System Dialogue Stimulus where
  start := fun state => state = ⟨.absent, []⟩
  step := fun state stimulus next => state.stage.next ndebug stimulus = some next.stage ∧
    next.exchanges = state.exchanges ++ state.stage.exchanged stimulus

theorem dialogue_functional (ndebug : Bool) : (dialogue ndebug).Functional where
  start := fun _ _ first second => first.trans second.symm
  step := by
    rintro state stimulus ⟨stage, exchanges⟩ ⟨other, others⟩ ⟨moved, added⟩ ⟨moves, adds⟩
    cases moved.symm.trans moves
    cases added.trans adds.symm
    rfl

/-! How long a handshake can last. Every completion that moves bytes before relaying
begins uses up one of the bytes the handshake consists of. -/

/-- The bytes of the phases and messages after this one, at most. An answer takes 22, a
name with its port 257, the reply to the greeting 2, the list of methods 254 more than the
greeting brings. -/
def Phase.later : Phase → Nat
  | .address _ => 22
  | .domainNameLength => 279
  | .request => 280
  | .methods _ => 286
  | .greeting => 540

namespace Stage

/-- The completions that can still move bytes before relaying begins. -/
def rank : Stage → Nat
  | .absent => 543
  | .reading phase held => phase.later + (phase.threshold - held.length)
  | .selecting unsent _ => 284 + unsent.length
  | .refusing _ => 1
  | .connecting _ _ => 22
  | .granting unsent _ => unsent.length
  | .stalled | .relaying _ | .draining _ _ | .leaked | .gone => 0

/-- A stage waits for something still to come. -/
def Pending : Stage → Prop
  | .reading phase held =>
      held.length < phase.threshold ∧ ∀ count, phase = .methods count → held ≠ []
  | .selecting unsent _ | .granting unsent _ => unsent ≠ []
  | .absent | .refusing _ | .stalled | .connecting _ _ | .relaying _ | .draining _ _ | .leaked
  | .gone => True

/-- Relaying has not begun. -/
def Early : Stage → Prop
  | .relaying _ | .draining _ _ => False
  | .absent | .reading _ _ | .selecting _ _ | .refusing _ | .stalled | .connecting _ _
  | .granting _ _ | .leaked | .gone => True

section Decisions

variable {ndebug : Bool} {lookup : List Byte → Hostent} {socket : SocketOutcome} {stage : Stage}
  {phase : Phase} {bytes : List Byte}

theorem ofDecision_connect {destination : Destination} {rest : List Byte}
    (decided : ofDecision ndebug lookup socket (.connect destination rest) = some stage) :
    stage.Pending ∧ stage.rank ≤ 22 := by
  simp only [ofDecision] at decided
  split at decided
  · split at decided
    · cases decided
      exact ⟨trivial, Nat.le_refl 22⟩
    · cases decided
    · cases decided
      exact ⟨trivial, Nat.le_add_left 1 21⟩
  · split at decided
    · cases decided
      exact ⟨trivial, Nat.le_add_left 1 21⟩
    · split at decided
      · cases decided
        exact ⟨trivial, Nat.zero_le 22⟩
      · cases decided

theorem ofDecision_address {kind : AddressKind}
    (decided : ofDecision ndebug lookup socket (decodeAddress kind bytes) = some stage) :
    stage.Pending ∧ (stage.rank ≤ 22 ∨ stage = .reading (.address kind) bytes) := by
  unfold decodeAddress at decided
  split at decided
  · exact (ofDecision_connect decided).imp_right .inl
  · next short =>
      cases decided
      exact ⟨⟨Nat.not_le.mp short, fun count same => by cases same⟩, .inr rfl⟩

/-- An address is waited for in no more bytes than a name can have. -/
theorem ofDecision_address_le {kind : AddressKind} (bounded : kind.length ≤ 257)
    (decided : ofDecision ndebug lookup socket (decodeAddress kind bytes) = some stage) :
    stage.Pending ∧ stage.rank ≤ 279 := by
  obtain ⟨pending, low | rfl⟩ := ofDecision_address decided
  · exact ⟨pending, by omega⟩
  · refine ⟨pending, ?_⟩
    simp only [rank, Phase.later, Phase.threshold]
    omega

theorem ofDecision_domainNameLength
    (decided : ofDecision ndebug lookup socket (decodeDomainNameLength bytes) = some stage) :
    stage.Pending ∧ (stage.rank ≤ 279 ∨ stage = .reading .domainNameLength bytes) := by
  cases bytes with
  | nil =>
      cases decided
      exact ⟨⟨by decide, fun count same => by cases same⟩, .inr rfl⟩
  | cons length tail =>
      refine (ofDecision_address_le ?_ decided).imp_right .inl
      have bounded := length.toNat_lt
      change length.toNat + 2 ≤ 257
      omega

theorem ofDecision_request
    (decided : ofDecision ndebug lookup socket (decodeRequest bytes) = some stage) :
    stage.Pending ∧ (stage.rank ≤ 280 ∨ stage = .reading .request bytes) := by
  have refused : ∀ code, ofDecision ndebug lookup socket (.refuse code) = some stage →
      stage.Pending ∧ (stage.rank ≤ 280 ∨ stage = .reading .request bytes) := by
    intro code refuses
    cases refuses
    exact ⟨trivial, .inl (Nat.le_add_left 1 279)⟩
  have addressed : ∀ kind rest, AddressKind.length kind ≤ 257 →
      ofDecision ndebug lookup socket (decodeAddress kind rest) = some stage →
      stage.Pending ∧ (stage.rank ≤ 280 ∨ stage = .reading .request bytes) := by
    intro kind rest bounded waits
    obtain ⟨pending, low⟩ := ofDecision_address_le bounded waits
    exact ⟨pending, .inl (by omega)⟩
  unfold decodeRequest at decided
  split at decided
  · split at decided
    · exact refused _ decided
    · split at decided
      · exact addressed _ _ (by decide) decided
      · split at decided
        · obtain ⟨pending, low | rfl⟩ := ofDecision_domainNameLength decided
          · exact ⟨pending, .inl (by omega)⟩
          · refine ⟨pending, .inl ?_⟩
            simp only [rank, Phase.later, Phase.threshold]
            omega
        · split at decided
          · exact addressed _ _ (by decide) decided
          · exact refused _ decided
  · next short =>
      cases decided
      have waits : decode .request bytes = .wait .request bytes := by simp [decode, decodeRequest]
      exact ⟨⟨decode_wait_short waits, fun count same => by cases same⟩, .inr rfl⟩

theorem ofDecision_methods {count : Nat} (some : bytes ≠ [])
    (decided : ofDecision ndebug lookup socket (decodeMethods count bytes) = .some stage) :
    stage.Pending ∧ (stage.rank ≤ 286 ∨ stage = .reading (.methods count) bytes) := by
  unfold decodeMethods at decided
  split at decided
  · next short =>
      cases decided
      exact ⟨⟨short, fun _ _ => some⟩, .inr rfl⟩
  · split at decided
    · cases decided
      exact ⟨List.cons_ne_nil _ _, .inl (Nat.le_refl 286)⟩
    · cases decided
      exact ⟨trivial, .inl (Nat.le_add_left 1 285)⟩

theorem ofDecision_greeting
    (decided : ofDecision ndebug lookup socket (decodeGreeting bytes) = some stage) :
    stage.Pending ∧ (stage.rank ≤ 540 ∨ stage = .reading .greeting bytes) := by
  unfold decodeGreeting at decided
  split at decided
  · next version count first rest =>
      split at decided
      · cases decided
        exact ⟨trivial, .inl (Nat.zero_le 540)⟩
      · obtain ⟨pending, low | rfl⟩ := ofDecision_methods (List.cons_ne_nil _ _) decided
        · exact ⟨pending, .inl (by omega)⟩
        · have bounded := count.toNat_lt
          refine ⟨pending, .inl ?_⟩
          simp only [rank, Phase.later, Phase.threshold, List.length_cons]
          omega
  · next short =>
      cases decided
      have waits : decode .greeting bytes = .wait .greeting bytes := by
        simp [decode, decodeGreeting]
      exact ⟨⟨decode_wait_short waits, fun count same => by cases same⟩, .inr rfl⟩

/-- Decoding more bytes leads on in the same phase or to something of a lower rank. -/
theorem ofDecision_decode (methods : ∀ count, phase = .methods count → bytes ≠ [])
    (decided : ofDecision ndebug lookup socket (decode phase bytes) = some stage) :
    stage.Pending ∧ (stage.rank ≤ phase.later ∨ stage = .reading phase bytes) := by
  cases phase with
  | greeting => exact ofDecision_greeting decided
  | methods count => exact ofDecision_methods (methods count rfl) decided
  | request => exact ofDecision_request decided
  | domainNameLength => exact ofDecision_domainNameLength decided
  | address kind => exact ofDecision_address decided

/-- A completion never raises the rank, and one that moves bytes lowers it as long as
relaying has not begun. -/
structure Descends (stage later : Stage) (stimulus : Stimulus) : Prop where
  pending : later.Pending
  rank : later.rank ≤ stage.rank
  lowers : stage.Early → stimulus.Moves → later.rank < stage.rank

theorem Descends.of_lt {later : Stage} {stimulus : Stimulus} (pending : later.Pending)
    (lower : later.rank < stage.rank) : stage.Descends later stimulus :=
  ⟨pending, Nat.le_of_lt lower, fun _ _ => lower⟩

theorem descends_of_next {stimulus : Stimulus} {later : Stage} (pending : stage.Pending)
    (counted : stimulus.Counted) (moved : stage.next ndebug stimulus = some later) :
    stage.Descends later stimulus := by
  unfold next at moved
  split at moved
  · cases moved
    exact ⟨⟨by decide, fun count same => by cases same⟩, Nat.le_refl 543, fun _ nothing =>
      absurd nothing id⟩
  · next phase held res data lookup socket =>
      have waits : 0 < phase.threshold - held.length := Nat.sub_pos_of_lt pending.1
      split at moved
      · cases moved
        exact .of_lt trivial (Nat.add_pos_right _ waits)
      · next positive =>
          have brought : res = data.length := (counted.1 rfl).resolve_left (by omega)
          have methods : ∀ count, phase = .methods count → held ++ data ≠ [] := by
            intro count same nothing
            exact pending.2 count same (List.append_eq_nil_iff.mp nothing).1
          obtain ⟨further, low | rfl⟩ := ofDecision_decode methods moved
          · refine .of_lt further (Nat.lt_of_le_of_lt low ?_)
            exact Nat.lt_add_of_pos_right waits
          · refine .of_lt further ?_
            have short := further.1
            rw [List.length_append] at short
            simp only [Stage.rank, List.length_append]
            omega
  · next unsent held res data lookup socket =>
      have some : 0 < unsent.length := List.length_pos_iff.mpr pending
      split at moved
      · cases moved
        exact .of_lt trivial (Nat.add_pos_right _ some)
      · split at moved
        · next part =>
            cases moved
            refine ⟨fun nothing => ?_, ?_, fun _ moving => ?_⟩
            · have gone := List.drop_eq_nil_iff.mp nothing
              omega
            · simp only [Stage.rank, List.length_drop]
              omega
            · have positive : 0 < res := moving
              simp only [Stage.rank, List.length_drop]
              omega
        · have methods : ∀ count, Phase.request = .methods count → held ≠ [] :=
            fun count same => by cases same
          obtain ⟨further, low | rfl⟩ := ofDecision_decode methods moved
          · refine .of_lt further (Nat.lt_of_le_of_lt low ?_)
            simp only [Stage.rank, Phase.later]
            omega
          · refine .of_lt further ?_
            simp only [Stage.rank, Phase.later, Phase.threshold]
            omega
  · cases moved
    exact .of_lt trivial Nat.one_pos
  · next address held res data lookup socket =>
      split at moved
      · cases moved
        exact .of_lt trivial (Nat.zero_lt_succ 21)
      · cases moved
        refine ⟨Call.grantMessage_ne_nil address, ?_, fun _ moving => ?_⟩
        · cases address <;> simp [Stage.rank, Call.grantMessage]
        · exact absurd (counted.2 rfl) (Int.not_le.mpr moving)
  · next unsent held res data lookup socket =>
      have some : 0 < unsent.length := List.length_pos_iff.mpr pending
      split at moved
      · cases moved
        exact .of_lt trivial some
      · split at moved
        · next part =>
            cases moved
            refine ⟨fun nothing => ?_, ?_, fun _ moving => ?_⟩
            · have gone := List.drop_eq_nil_iff.mp nothing
              omega
            · simp only [Stage.rank, List.length_drop]
              omega
            · have positive : 0 < res := moving
              simp only [Stage.rank, List.length_drop]
              omega
        · cases moved
          exact .of_lt trivial some
  · next legs type res data lookup socket =>
      obtain ⟨direction, -, leads⟩ := Option.bind_eq_some_iff.mp moved
      split at leads
      · cases leads
      · split at leads <;> cases leads <;>
          exact ⟨trivial, Nat.le_refl 0, fun early => absurd early id⟩
  · split at moved
    · cases moved
      exact ⟨trivial, Nat.le_refl 0, fun early => absurd early id⟩
    · cases moved
  · cases moved

end Decisions

end Stage

end ModernCppHw.Socks5
