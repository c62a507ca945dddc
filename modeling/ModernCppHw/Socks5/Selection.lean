import ModernCppHw.Socks5.Messages

/-! The reply to a client's greeting. A method is looked for among those the greeting
declares and whether one is found is recorded, but the reply is built from constants. -/

set_option autoImplicit false

namespace ModernCppHw.Socks5

/-- The stream begins with a greeting `05 n m1 .. mn` of these methods. -/
structure Declares (stream methods : List Byte) : Prop where
  some : methods ≠ []
  counted : methods.length < 256
  begins : 0x05 :: UInt8.ofNat methods.length :: methods <+: stream

/-- No authentication, if that is among the methods; otherwise that none of them will do. -/
def selectedMethod (methods : List Byte) : Byte := if 0x00 ∈ methods then 0x00 else 0xFF

/-- The stream begins with a greeting, and whether it has an acceptable method. -/
def Declared (stream : List Byte) (accepted : Bool) : Prop :=
  ∃ methods, Declares stream methods ∧ (0x00 ∈ methods ↔ accepted = true)

section Declares

variable {stream methods rest : List Byte} {accepted : Bool}

theorem not_declares_nil (methods : List Byte) : ¬ Declares [] methods := by
  intro declares
  cases List.prefix_nil.mp declares.begins

theorem Declares.append (declares : Declares stream methods) (data : List Byte) :
    Declares (stream ++ data) methods :=
  ⟨declares.some, declares.counted, declares.begins.trans (List.prefix_append _ _)⟩

theorem Declared.append (declared : Declared stream accepted) (data : List Byte) :
    Declared (stream ++ data) accepted := by
  obtain ⟨methods, declares, offers⟩ := declared
  exact ⟨methods, declares.append data, offers⟩

/-- What follows the declared methods has no say in what is decided of them. -/
theorem Declares.decodeGreeting_eq (declares : Declares stream methods) :
    ∃ rest, decodeGreeting stream =
      if 0x00 ∈ methods then .selectMethod rest else .refuseMethods rest := by
  obtain ⟨some, counted, rest, rfl⟩ := declares
  refine ⟨rest, ?_⟩
  rw [decodeGreeting_of_methods some counted]
  simp [decodeMethods]

theorem declares_of_decodeMethods {version count first : Byte} {tail : List Byte}
    (head : ¬ (version ≠ 0x05 ∨ count.toNat = 0))
    (enough : ¬ (first :: tail).length < count.toNat) :
    Declares (version :: count :: first :: tail) ((first :: tail).take count.toNat) := by
  obtain ⟨rfl, counts⟩ : version = 0x05 ∧ count.toNat ≠ 0 := by
    simpa only [not_or, not_not] using head
  have length : ((first :: tail).take count.toNat).length = count.toNat :=
    List.length_take_of_le (Nat.not_lt.mp enough)
  refine ⟨List.ne_nil_of_length_pos (by omega), length.trans_lt count.toNat_lt, ?_⟩
  rw [length, UInt8.ofNat_toNat]
  exact (List.prefix_append_right_inj [0x05, count]).mpr (List.take_prefix _ _)

theorem Declared.of_decodeGreeting
    (decoded : decodeGreeting stream =
      if accepted then .selectMethod rest else .refuseMethods rest) :
    Declared stream accepted := by
  unfold decodeGreeting at decoded
  split at decoded
  · split at decoded
    · cases accepted <;> cases decoded
    · next head =>
        unfold decodeMethods at decoded
        split at decoded
        · cases accepted <;> cases decoded
        · next enough =>
            refine ⟨_, declares_of_decodeMethods head enough, ?_⟩
            split at decoded
            · next offered =>
                cases accepted with
                | false => cases decoded
                | true => exact iff_of_true offered rfl
            · next refused =>
                cases accepted with
                | false => exact iff_of_false refused Bool.false_ne_true
                | true => cases decoded
  · cases accepted <;> cases decoded

theorem Declared.iff (declared : Declared stream accepted) (declares : Declares stream methods) :
    0x00 ∈ methods ↔ accepted = true := by
  obtain ⟨others, same, offers⟩ := declared
  rw [← offers]
  obtain ⟨rest, decoded⟩ := declares.decodeGreeting_eq
  obtain ⟨following, again⟩ := same.decodeGreeting_eq
  rw [decoded] at again
  by_cases offered : 0x00 ∈ methods
  · by_cases others : 0x00 ∈ others
    · exact iff_of_true offered others
    · rw [if_pos offered, if_neg others] at again
      cases again
  · by_cases others : 0x00 ∈ others
    · rw [if_neg offered, if_pos others] at again
      cases again
    · exact iff_of_false offered others

end Declares

/-! How the handshake gets past the greeting. -/

theorem Handled.greeted {env : Env} {call after : Call} {decision : Decision}
    (handled : Handled env call decision (.ok after)) (greeted : decision.Greeted) :
    after.self.state.Greeted := by
  have requesting : State.Greeted .readingClientConnectionRequest := ⟨by decide, by decide⟩
  have addressed : State.Greeted .readingAddress := ⟨by decide, by decide⟩
  have connecting : State.Greeted .connectingToDestination := ⟨by decide, by decide⟩
  generalize ended : Except.ok after = result at handled
  cases handled with
  | wait steady inPhase =>
      cases ended
      exact Eq.mpr (congrArg State.Greeted inPhase.state) greeted
  | close | selectMethod | refuseMethods => exact greeted.elim
  | refuse steady state =>
      cases ended
      exact Eq.mpr (congrArg State.Greeted state) requesting
  | unresolved steady state | socketException steady state =>
      cases ended
      exact Eq.mpr (congrArg State.Greeted state) addressed
  | otherFamily steady state =>
      cases Call.unreachable_ok ended.symm
      exact Eq.mpr (congrArg State.Greeted state) addressed
  | connect =>
      cases ended
      exact connecting
  | socketError => cases ended

theorem Reacts.greeted {env : Env} {call after : Call} {res : Int} {request : Request}
    {rest : List Request} (reacted : Reacts env call res request rest (.ok (after, false)))
    (greeted : call.self.state.Greeted) : after.self.state.Greeted := by
  generalize ended : Except.ok (after, false) = result at reacted
  cases reacted with
  | lost | hungUp =>
      obtain ⟨files, -, -, rfl⟩ := Call.failImmediately_ok (kept_ok ended.symm).1
      exact greeted
  | decoded inPhase _ _ _ _ handled =>
      obtain ⟨rfl, -⟩ := kept_ok ended.symm
      exact handled.greeted (decode_greeted (inPhase.state ▸ greeted) _)
  | methodSent state => exact absurd state greeted.2
  | deleted => cases ended
  | granted =>
      cases ended
      rw [State.Greeted, (Call.beginProxying_state _ _).1]
      exact ⟨by decide, by decide⟩
  | _ =>
      cases ended
      exact greeted

/-- Before the greeting is whole nothing is sent. Then a reply is, and the session
fails if no method is acceptable. -/
theorem Handled.answers {env : Env} {call after : Call} {stream : List Byte}
    (handled : Handled env call (decodeGreeting stream) (.ok after)) (fresh : call.submitted = [])
    (healthy : call.self.isFailed = false) :
    (¬ after.self.state.Greeted ∧ (∀ methods, ¬ Declares stream methods) ∧
        ∀ request ∈ after.submitted, request.type = .clientRead) ∨
      ∃ accepted, after.self.state = .readingAuthMethods ∧ Declared stream accepted ∧
        after.self.isFailed = !accepted ∧
        after.submitted = [after.self.pendingWrite env.isRoot] ∧
        after.self.writeClientBuffer = [0x05, 0x00] := by
  have ungreeted := decodeGreeting_ungreeted stream
  generalize decoded : decodeGreeting stream = decision at handled ungreeted
  generalize ended : Except.ok after = result at handled
  have only : ∀ {new : Request}, call.submitted ++ [new] = [new] := by
    intro new
    rw [fresh, List.nil_append]
  have undeclared : (∀ rest, decision ≠ .selectMethod rest) →
      (∀ rest, decision ≠ .refuseMethods rest) → ∀ methods, ¬ Declares stream methods := by
    intro unselected unrefused methods declares
    obtain ⟨rest, same⟩ := declares.decodeGreeting_eq
    rw [decoded] at same
    split at same
    · exact unselected rest same
    · exact unrefused rest same
  cases handled with
  | wait steady inPhase =>
      cases ended
      refine .inl ⟨fun greeted => ungreeted ?_, undeclared (fun _ same => by cases same)
        (fun _ same => by cases same), fun request member => ?_⟩
      · exact Eq.mp (congrArg State.Greeted inPhase.state) greeted
      · have single : request ∈ call.submitted ++ [_] := member
        rw [only, List.mem_singleton] at single
        rw [single]
        rfl
  | close steady state =>
      obtain ⟨files, -, -, rfl⟩ := Call.failImmediately_ok ended.symm
      refine .inl ⟨fun greeted => greeted.1 state, undeclared (fun _ same => by cases same)
        (fun _ same => by cases same), fun request member => ?_⟩
      exact absurd member (not_submitted fresh rfl)
  | selectMethod steady state =>
      cases ended
      exact .inr ⟨true, state, .of_decodeGreeting decoded, steady.isFailed.trans healthy, only, rfl⟩
  | refuseMethods steady state =>
      cases ended
      exact .inr ⟨false, state, .of_decodeGreeting decoded, rfl, only, rfl⟩
  | _ => exact absurd trivial ungreeted

/-! Where a session stands with its client's greeting. -/

namespace Connection

/-- The client has not declared its methods, and has been sent nothing. -/
structure Ungreeted (connection : Connection) : Prop where
  state : ¬ connection.session.state.Greeted
  undeclared : ∀ methods, ¬ Declares (handshake connection.transfers) methods
  reads : ∀ request ∈ connection.requests, request.type = .clientRead
  silent : selected connection.transfers = []

/-- The reply is on its way, and the session is failed unless a method is acceptable. -/
structure Answering (connection : Connection) (accepted : Bool) : Prop where
  state : connection.session.state = .readingAuthMethods
  declared : Declared (handshake connection.transfers) accepted
  failed : connection.session.isFailed = !accepted
  pending : connection.requests ≠ []
  writes : ∀ request ∈ connection.requests, request.type = .clientWrite
  message : selected connection.transfers ++ connection.session.writeClientBuffer = [0x05, 0x00]

/-- Nothing is to come after the reply, or after the part of it that was sent. -/
structure Ended (connection : Connection) (accepted : Bool) : Prop where
  state : connection.session.state = .readingAuthMethods
  declared : Declared (handshake connection.transfers) accepted
  failed : connection.session.isFailed = true
  closed : accepted = true → connection.session.fd = -1
  none : connection.requests = []
  part : selected connection.transfers <+: [0x05, 0x00]

/-- The whole reply has been sent, and the session has gone on to the request. -/
structure Greeted (connection : Connection) : Prop where
  state : connection.session.state.Greeted
  declared : Declared (handshake connection.transfers) true
  whole : selected connection.transfers = [0x05, 0x00]

inductive Selecting (connection : Connection) : Prop where
  | ungreeted : connection.Ungreeted → Selecting connection
  | answering {accepted : Bool} : connection.Answering accepted → Selecting connection
  | ended {accepted : Bool} : connection.Ended accepted → Selecting connection
  | greeted : connection.Greeted → Selecting connection

theorem Selecting.congr {before after : Connection} (law : before.Selecting)
    (session : after.session = before.session) (requests : after.requests.Perm before.requests)
    (transfers : after.transfers = before.transfers) : after.Selecting := by
  cases law with
  | ungreeted law =>
      refine .ungreeted ⟨session ▸ law.state, transfers ▸ law.undeclared, fun request member => ?_,
        transfers ▸ law.silent⟩
      exact law.reads request (requests.mem_iff.mp member)
  | answering law =>
      refine .answering ⟨session ▸ law.state, transfers ▸ law.declared, session ▸ law.failed,
        fun none => law.pending ?_, fun request member => ?_, ?_⟩
      · exact List.nil_perm.mp (none ▸ requests)
      · exact law.writes request (requests.mem_iff.mp member)
      · rw [transfers, session]
        exact law.message
  | ended law =>
      refine .ended ⟨session ▸ law.state, transfers ▸ law.declared, session ▸ law.failed,
        session ▸ law.closed, ?_, transfers ▸ law.part⟩
      exact List.perm_nil.mp (law.none ▸ requests)
  | greeted law =>
      exact .greeted ⟨session ▸ law.state, transfers ▸ law.declared, transfers ▸ law.whole⟩

end Connection

namespace Server

variable {config : Config} {server next : Server} {client : SessionId} {label : Label}
  {index : Nat} {sqe : Sqe} {res : Int} {data : List Byte} {answers : Answers} {event : Event}
  {session : Session} {rest : List Request} {after : Call} {accepted : Bool}

open Transition

/-- A completion adds to the stream what it brings in the handshake. -/
theorem handshake_extends (transfers : List Transfer) :
    handshake transfers <+: handshake (transfers ++
      server.transferred event session sqe res data) := by
  rw [handshake_append]
  exact List.prefix_append _ _

theorem selected_of_other (transfers : List Transfer)
    (other : event.type ≠ .clientWrite ∨ session.state ≠ .readingAuthMethods) :
    selected (transfers ++ server.transferred event session sqe res data) = selected transfers := by
  rw [selected_completed, if_neg fun counts => ?_, List.append_nil]
  exact other.elim (fun type => type counts.2.1) fun state => state counts.2.2

/-- A completion with no more than zero bytes brings none. -/
theorem Concerns.handshake_eq
    (concerns : server.Concerns index sqe res data answers event session rest) (none : res ≤ 0)
    (transfers : List Transfer) :
    handshake (transfers ++ server.transferred event session sqe res data) =
      handshake transfers := by
  by_cases reads : event.type = .clientRead ∧ session.state.BeforeConnect ∧ 0 ≤ res
  · obtain ⟨reading, before, succeeded⟩ := reads
    have nothing : server.moved sqe res.toNat data = [] := by
      have zero : res = 0 := Int.le_antisymm none succeeded
      have yields := concerns.completes.yields
      subst zero
      cases operation : sqe.operation with
      | read =>
          rw [operation] at yields
          obtain ⟨measured, -⟩ := yields.resolve_left (Int.lt_irrefl 0)
          simp only [moved, operation]
          exact List.length_eq_zero_iff.mp (Int.ofNat_eq_zero.mp measured.symm)
      | write => exact List.length_eq_zero_iff.mp (concerns.length_moved operation succeeded)
      | _ => simp only [moved, operation]
    rw [handshake_of_read _ reading before succeeded, nothing, List.append_nil]
  · apply handshake_of_other
    by_cases reading : event.type = .clientRead
    · by_cases before : session.state.BeforeConnect
      · exact .inr (.inr (Int.not_le.mp fun succeeded => reads ⟨reading, before, succeeded⟩))
      · exact .inr (.inl before)
    · exact .inl reading

theorem Concerns.ungreeted (reached : (eventLoop config).Reachable server)
    (concerns : server.Concerns index sqe res data answers event session rest)
    (law : (server.connection event.client session).Ungreeted)
    (returned : Call.react (server.env answers) event.type res
      ((server.retire index sqe res data).callOn session) = .ok (after, false)) :
    (server.afterwards event session sqe res data rest after).Ungreeted ∨
      ∃ accepted, (server.afterwards event session sqe res data rest after).Answering accepted := by
  have own := concerns.member
  have reading : event.type = .clientRead := law.reads _ own
  have silent : selected (server.transfersOf event.client ++
      server.transferred event session sqe res data) = [] :=
    (selected_of_other _ (.inl (by rw [reading]; decide))).trans law.silent
  have proxied : ∀ {other : Session}, other.state = .proxyingRequests → other.state.Greeted :=
    fun state => state ▸ ⟨by decide, by decide⟩
  have negotiating := reachable_negotiating reached _ _ concerns.live
  have reacted := concerns.reacted returned
  generalize asked : (⟨event.type, sqe.operation⟩ : Request) = request at reacted
  have type : request.type = .clientRead := (congrArg Request.type asked).symm.trans reading
  generalize ended : Except.ok (after, false) = result at reacted
  cases reacted with
  | lost before null awaited ending =>
      obtain ⟨files, -, -, rfl⟩ := Call.failImmediately_ok (Reacts.kept_ok ended.symm).1
      have none : res ≤ 0 := by
        rcases ending with failing | ⟨zero, -⟩
        · exact Int.le_of_lt failing
        · exact Int.le_of_eq zero
      have stream := concerns.handshake_eq none (server.transfersOf event.client)
      exact .inl ⟨law.state, stream ▸ law.undeclared, fun _ member => absurd member List.not_mem_nil,
        silent⟩
  | @decoded phase result inPhase healthy null awaited positive handled =>
      obtain ⟨rfl, -⟩ := Reacts.kept_ok ended.symm
      have before : session.state.BeforeConnect := by
        have state : session.state = phase.state := inPhase.state
        rw [state]
        exact phase.state_beforeConnect
      have received : (((server.retire index sqe res data).callOn session).forgetEvent.receive
          res.toNat).self.readBuffer = session.readBuffer ++ data :=
        congrArg (session.readBuffer ++ ·) (concerns.received asked inPhase.early positive)
      have stream : handshake (server.transfersOf event.client ++
          server.transferred event session sqe res data) =
            handshake (server.transfersOf event.client) ++ data :=
        handshake_of_request asked before positive _
      have waits : decodeGreeting (handshake (server.transfersOf event.client)) =
          .wait phase session.readBuffer := by
        rcases negotiating.waits inPhase own reading with waits | ⟨following, greeted, -⟩
        · exact waits
        · obtain ⟨methods, declares, -⟩ :=
            Declared.of_decodeGreeting (greeted.trans (if_pos rfl).symm)
          exact absurd declares (law.undeclared methods)
      have decided : decodeGreeting (handshake (server.transfersOf event.client) ++ data) =
          decode phase (session.readBuffer ++ data) := decodeGreeting_append waits data
      rw [received, ← decided, ← stream] at handled
      rcases handled.answers rfl healthy with ⟨state, undeclared, reads⟩ |
        ⟨accepted, state, declared, failed, submitted, message⟩
      · exact .inl ⟨state, undeclared, reads, silent⟩
      · refine .inr ⟨accepted, state, declared, failed, ?_, ?_, ?_⟩
        · rw [afterwards, submitted]
          exact List.cons_ne_nil _ _
        · intro request member
          rw [afterwards, submitted] at member
          rw [List.mem_singleton.mp member]
          rfl
        · rw [silent, message]
          rfl
  | deleted => cases ended
  | methodGoesOn | methodSent | refusalSent | connected | grantGoesOn | granted => cases type
  | hungUp state | upRead state | upWritten state | upGoesOn state | downRead state
  | downWritten state | downGoesOn state => exact absurd (proxied state) law.state

theorem Concerns.answering (reached : (eventLoop config).Reachable server)
    (concerns : server.Concerns index sqe res data answers event session rest)
    (law : (server.connection event.client session).Answering accepted)
    (returned : Call.react (server.env answers) event.type res
      ((server.retire index sqe res data).callOn session) = .ok (after, false)) :
    (server.afterwards event session sqe res data rest after).Selecting := by
  have own := concerns.member
  have writing : event.type = .clientWrite := law.writes _ own
  have state : session.state = .readingAuthMethods := law.state
  have early : session.state ≠ .proxyingRequests := by
    rw [state]
    decide
  have declared : Declared (handshake (server.transfersOf event.client ++
      server.transferred event session sqe res data)) accepted := by
    rw [handshake_of_other _ (.inl (by rw [writing]; decide))]
    exact law.declared
  have message : selected (server.transfersOf event.client) ++ session.writeClientBuffer =
      [0x05, 0x00] := law.message
  have taken : 0 ≤ res → selected (server.transfersOf event.client ++
      server.transferred event session sqe res data) =
        selected (server.transfersOf event.client) ++ session.writeClientBuffer.take res.toNat := by
    intro succeeded
    rw [selected_completed, if_pos ⟨succeeded, writing, state⟩,
      concerns.moved_of_early reached early writing succeeded]
  have sent : 0 ≤ res → selected (server.transfersOf event.client ++
      server.transferred event session sqe res data) ++
        session.writeClientBuffer.drop res.toNat = [0x05, 0x00] := by
    intro succeeded
    rw [taken succeeded, List.append_assoc, List.take_append_drop, message]
  have reacted := concerns.reacted returned
  generalize asked : (⟨event.type, sqe.operation⟩ : Request) = request at reacted
  have type : request.type = .clientWrite := (congrArg Request.type asked).symm.trans writing
  generalize ended : Except.ok (after, false) = result at reacted
  cases reacted with
  | lost before null awaited ending =>
      obtain ⟨files, -, -, rfl⟩ := Call.failImmediately_ok (Reacts.kept_ok ended.symm).1
      refine .ended ⟨state, declared, rfl, fun _ => rfl, rfl, ?_⟩
      have failing : res < 0 := ending.resolve_right fun ⟨_, _, reading⟩ => by
        cases type.symm.trans reading
      have unsent : selected (server.transfersOf event.client ++
          server.transferred event session sqe res data) =
            selected (server.transfersOf event.client) := by
        rw [Server.transferred, if_pos failing, List.append_nil]
      rw [unsent]
      exact ⟨_, message⟩
  | decoded => cases type
  | methodGoesOn _ healthy null awaited succeeded part =>
      cases ended
      refine .answering ⟨state, declared, law.failed, ?_, fun request member => ?_, sent succeeded⟩
      · exact List.cons_ne_nil _ _
      · cases List.mem_singleton.mp member
        rfl
  | methodSent _ healthy null awaited succeeded whole handled =>
      obtain ⟨rfl, -⟩ := Reacts.kept_ok ended.symm
      have healthier : session.isFailed = !accepted := law.failed
      have unfailed : session.isFailed = false := healthy
      have accepts : accepted = true := by
        cases accepted with
        | true => rfl
        | false => cases unfailed.symm.trans healthier
      refine .greeted ⟨handled.greeted (decodeRequest_greeted _), accepts ▸ declared, ?_⟩
      have counted : res.toNat = session.writeClientBuffer.length := whole
      rw [taken succeeded, counted, List.take_length, message]
  | refusalSent before failed null awaited succeeded =>
      cases ended
      have unsound : session.isFailed = true := failed
      have failing : session.isFailed = !accepted := law.failed
      refine .ended ⟨state, declared, failed, fun accepts => ?_, rfl, ?_⟩
      · subst accepts
        cases unsound.symm.trans failing
      · exact ⟨_, sent succeeded⟩
  | deleted => cases ended
  | connected other | grantGoesOn other | granted other | hungUp other | upRead other
  | upWritten other | upGoesOn other | downRead other | downWritten other | downGoesOn other =>
      cases other.symm.trans state

theorem Concerns.greeted
    (concerns : server.Concerns index sqe res data answers event session rest)
    (law : (server.connection event.client session).Greeted)
    (returned : Call.react (server.env answers) event.type res
      ((server.retire index sqe res data).callOn session) = .ok (after, false)) :
    (server.afterwards event session sqe res data rest after).Greeted := by
  refine ⟨(concerns.reacted returned).greeted law.state, ?_, ?_⟩
  · rw [handshake_append]
    exact law.declared.append _
  · exact (selected_of_other _ (.inr law.state.2)).trans law.whole

theorem reachable_selecting (reached : (eventLoop config).Reachable server) :
    ∀ client session, server.sessions.get? client = some session →
      (server.connection client session).Selecting := by
  refine reachable_connection Connection.Selecting ?_ reached
  intro server label client connection earlier _ _ lawful evolves
  cases evolves with
  | opened =>
      refine .ungreeted ⟨fun greeted => greeted.1 rfl, fun methods declares => ?_,
        fun request member => ?_, rfl⟩
      · exact not_declares_nil methods declares
      · rw [List.mem_singleton.mp member]
        rfl
  | undisturbed live same => exact (lawful _ live).congr same.session same.requests same.transfers
  | filled _ _ _ live | collected _ _ _ live => exact (lawful _ live).congr rfl (.refl _) rfl
  | @completed index sqe res data answers event session rest after concerns owner returned =>
      subst owner
      have own := concerns.member
      cases lawful _ concerns.live with
      | ungreeted law =>
          rcases concerns.ungreeted earlier law returned with law | ⟨accepted, law⟩
          · exact .ungreeted law
          · exact .answering law
      | answering law => exact concerns.answering earlier law returned
      | ended law => exact absurd own (List.eq_nil_iff_forall_not_mem.mp law.none _)
      | greeted law => exact .greeted (concerns.greeted law returned)

theorem handshakeOf_prefix (reached : (eventLoop config).Reachable server) {later : Server}
    (leads : (eventLoop config).Leads server later) (client : SessionId) :
    server.handshakeOf client <+: later.handshakeOf client := by
  refine leads.invariant (fun state => server.handshakeOf client <+: state.handshakeOf client)
    reached List.prefix_rfl fun state label next earlier extended stepped => extended.trans ?_
  rcases ((reachable_wellFormed earlier).moves stepped).records client with same |
    ⟨index, sqe, res, data, answers, event, session, rest, -, -, -, added⟩
  · rw [handshakeOf, handshakeOf, same]
  · rw [handshakeOf, handshakeOf, added]
    exact handshake_extends _

end Server

namespace Connection

/-- The reply to the greeting: what was written of it, and what is being written. -/
def selection (connection : Connection) : List Byte :=
  selected connection.transfers ++
    if connection.session.state = .readingAuthMethods then
      (connection.requests.filter (·.type = .clientWrite)).flatMap connection.content
    else []

/-- The reply is the one that is due to the methods. If one of them is acceptable the
session goes on to the request once the reply is out, unless it is hung up on; if none is
it is failed and its client not read any more. -/
structure Selects (connection : Connection) (methods : List Byte) : Prop where
  sent : connection.selection <+: [0x05, selectedMethod methods]
  whole : connection.requests ≠ [] → connection.selection = [0x05, selectedMethod methods]
  continues : 0x00 ∈ methods → connection.session.fd ≠ -1 →
    (connection.session.state = .readingAuthMethods ∧ connection.session.isFailed = false ∧
        connection.requests ≠ []) ∨
      (connection.session.state.Greeted ∧ selected connection.transfers = [0x05, 0x00])
  stops : 0x00 ∉ methods → connection.session.isFailed = true ∧
    ∀ request ∈ connection.requests, request.type = .clientWrite

variable {connection : Connection} {methods : List Byte} {accepted : Bool}

theorem Answering.selection_eq (law : connection.Answering accepted)
    (content : ∀ request ∈ connection.requests, request.type = .clientWrite →
      connection.requests = [request] ∧
        connection.content request = connection.session.writeClientBuffer) :
    connection.selection = [0x05, 0x00] := by
  obtain ⟨request, rest, requests⟩ := List.exists_cons_of_ne_nil law.pending
  have member : request ∈ connection.requests := requests ▸ List.mem_cons_self
  obtain ⟨single, loaded⟩ := content request member (law.writes request member)
  have message := law.message
  rw [selection, if_pos law.state, single]
  simpa [law.writes request member, loaded] using message

theorem Selecting.selects (law : connection.Selecting)
    (declares : Declares (handshake connection.transfers) methods) (offered : 0x00 ∈ methods)
    (content : connection.session.state = .readingAuthMethods →
      ∀ request ∈ connection.requests, request.type = .clientWrite →
        connection.requests = [request] ∧
          connection.content request = connection.session.writeClientBuffer) :
    connection.Selects methods := by
  have reply : selectedMethod methods = 0x00 := if_pos offered
  have right : connection.selection = [0x05, 0x00] →
      connection.selection <+: [0x05, selectedMethod methods] ∧
        connection.selection = [0x05, selectedMethod methods] := by
    intro same
    rw [reply, same]
    exact ⟨List.prefix_rfl, rfl⟩
  cases law with
  | ungreeted law => exact absurd declares (law.undeclared methods)
  | answering law =>
      have accepts := (law.declared.iff declares).mp offered
      obtain ⟨sent, whole⟩ := right (law.selection_eq (content law.state))
      refine ⟨sent, fun _ => whole, fun _ _ => .inl ⟨law.state, ?_, law.pending⟩,
        fun refused => absurd offered refused⟩
      rw [law.failed, accepts]
      rfl
  | ended law =>
      have accepts := (law.declared.iff declares).mp offered
      refine ⟨?_, fun pending => absurd law.none pending,
        fun _ opened => absurd (law.closed accepts) opened, fun refused => absurd offered refused⟩
      rw [selection, law.none, reply]
      simpa using law.part
  | greeted law =>
      have same : connection.selection = [0x05, 0x00] := by
        rw [selection, if_neg law.state.2, List.append_nil]
        exact law.whole
      obtain ⟨sent, whole⟩ := right same
      exact ⟨sent, fun _ => whole, fun _ _ => .inr ⟨law.state, law.whole⟩,
        fun refused => absurd offered refused⟩

end Connection

namespace Server

variable {config : Config} {server next : Server} {client : SessionId} {label : Label}
  {methods : List Byte}

open Transition

/-- The step that completes the greeting leaves the session with its reply on the way. -/
theorem exists_answering (reached : (eventLoop config).Reachable server)
    (stepped : Step server label next)
    (undeclared : ∀ methods, ¬ Declares (server.handshakeOf client) methods)
    (declares : Declares (next.handshakeOf client) methods) :
    ∃ session accepted, next.sessions.get? client = some session ∧
      (next.connection client session).Answering accepted := by
  have moves := (reachable_wellFormed reached).moves stepped
  rcases moves.records client with same | ⟨index, sqe, res, data, answers, event, session, rest,
    rfl, owner, concerns, -⟩
  · rw [handshakeOf, same] at declares
    exact absurd declares (undeclared methods)
  subst owner
  have concerned := concerns.concerned
  cases moves with
  | acceptFailed completes unowned | acceptRefused completes unowned
  | accepted completes unowned =>
      rw [completes.concerned_none unowned] at concerned
      cases concerned
  | @served _ _ _ _ _ _ _ _ after deleted _ serves =>
      rw [serves.concerned] at concerned
      cases concerned
      cases reachable_selecting reached _ _ serves.live with
      | ungreeted law =>
          cases deleted with
          | true =>
              refine absurd ?_ serves.reacted.of_deleted.2.2.2
              have state : ¬ session.state.Greeted := law.state
              refine ⟨fun connecting => state ?_, fun proxying => state ?_⟩
              · exact connecting ▸ ⟨by decide, by decide⟩
              · exact proxying ▸ ⟨by decide, by decide⟩
          | false =>
              have shown := serves.toConcerns.ungreeted reached law serves.returned
              rw [← serves.connection] at shown
              rcases shown with law | ⟨accepted, law⟩
              · exact absurd declares (law.undeclared methods)
              · exact ⟨after.self, accepted, serves.get?_kept, law⟩
      | answering law | ended law =>
          obtain ⟨others, declared, -⟩ := law.declared
          exact absurd declared (undeclared others)
      | greeted law =>
          obtain ⟨others, declared, -⟩ := law.declared
          exact absurd declared (undeclared others)

end Server

/-- Once a client's greeting is whole, the reply is the one due to the methods in every
state of every run from there on exactly when no authentication is among them. -/
theorem selections_right {config : Config} {server next : Server} {client : SessionId}
    {label : Label} {methods : List Byte} (reached : (eventLoop config).Reachable server)
    (stepped : Server.Step server label next)
    (undeclared : ∀ methods, ¬ Declares (server.handshakeOf client) methods)
    (declares : Declares (next.handshakeOf client) methods) :
    (∀ later session, (eventLoop config).Leads next later →
        later.sessions.get? client = some session →
        (later.connection client session).Selects methods) ↔ 0x00 ∈ methods := by
  have following : (eventLoop config).Reachable next := .step reached trivial stepped
  constructor
  · intro selects
    by_contra refused
    obtain ⟨session, accepted, live, law⟩ :=
      Server.exists_answering reached stepped undeclared declares
    have early : session.state ≠ .proxyingRequests := by
      have state : session.state = .readingAuthMethods := law.state
      rw [state]
      decide
    have sent := law.selection_eq fun request member writing =>
      ⟨(Server.content_of_early following live early member writing).1,
        (Server.content_of_early following live early member writing).2.2⟩
    have due := (selects next session .refl live).whole law.pending
    rw [sent, selectedMethod, if_neg refused] at due
    cases due
  · intro offered later session leads live
    have reaches := leads.reachable following
    have extended : Declares (later.handshakeOf client) methods := by
      obtain ⟨data, same⟩ := Server.handshakeOf_prefix following leads client
      exact same ▸ declares.append data
    refine (Server.reachable_selecting reaches client session live).selects extended offered ?_
    intro state request member writing
    have early : session.state ≠ .proxyingRequests := by
      have same : session.state = .readingAuthMethods := state
      rw [same]
      decide
    have content := Server.content_of_early reaches live early member writing
    exact ⟨content.1, content.2.2⟩

/-- A connection has been taken. -/
private def greeting : List Label := Label.relaying.take 1

/-- A client offers no authentication. -/
theorem selections_right_offered :
    ∃ server next, (eventLoop (.single true)).Reachable server ∧
      Server.Step server (.complete 1 3 [5, 1, 0] .none) next ∧
      ∀ later session, (eventLoop (.single true)).Leads next later →
        later.sessions.get? 0 = some session →
        (later.connection 0 session).Selects [0x00] := by
  obtain ⟨server, next, reached, stepped, shown⟩ := Server.exists_step (.single true) greeting
    (.complete 1 3 [5, 1, 0] .none) (fun _ _ => true)
    (fun server next => server.handshakeOf 0 = [] ∧ next.handshakeOf 0 = [5, 1, 0])
    (fun _ _ _ _ => trivial) (by decide)
  obtain ⟨before, after⟩ := of_decide_eq_true shown
  refine ⟨server, next, reached, stepped, (selections_right reached stepped ?_ ?_).mpr (by decide)⟩
  · rw [before]
    exact not_declares_nil
  · rw [after]
    exact ⟨by decide, by decide, by decide⟩

/-- A client that offers the method `01` only is sent `05 00`. -/
theorem selection_wrong_refused :
    ¬ ∀ (config : Config) (server next : Server) (client : SessionId) (label : Label)
      (methods : List Byte), (eventLoop config).Reachable server →
        Server.Step server label next →
        (∀ methods, ¬ Declares (server.handshakeOf client) methods) →
        Declares (next.handshakeOf client) methods →
        ∀ later session, (eventLoop config).Leads next later →
          later.sessions.get? client = some session →
          (later.connection client session).Selects methods := by
  intro always
  obtain ⟨server, next, reached, stepped, shown⟩ := Server.exists_step (.single true) greeting
    (.complete 1 3 [5, 1, 1] .none) (fun _ _ => true)
    (fun server next => server.handshakeOf 0 = [] ∧ next.handshakeOf 0 = [5, 1, 1] ∧
      ∃ session ∈ next.sessions.get? 0, (next.connection 0 session).requests ≠ [] ∧
        (next.connection 0 session).selection = [0x05, 0x00])
    (fun _ _ _ _ => trivial) (by decide)
  obtain ⟨before, after, session, live, pending, sent⟩ := of_decide_eq_true shown
  have selects := always _ server next 0 _ [0x01] reached stepped
    (by rw [before]; exact not_declares_nil)
    (by rw [after]; exact ⟨by decide, by decide, by decide⟩) next session .refl live
  have due := selects.whole pending
  rw [sent] at due
  exact absurd due (by decide)

end ModernCppHw.Socks5
