import ModernCppHw.Socks5.Connection

/-! Which completions make a session decide on its handshake, as a function of
the session and of what the completion brings; and how an iteration can fault. -/

set_option autoImplicit false

namespace ModernCppHw.Socks5

/-- What a session in the handshake is waiting for, as its fields tell. -/
def Session.phase (session : Session) : Option Phase :=
  match session.state with
  | .readingClientGreeting => some .greeting
  | .readingAuthMethods => session.authMethodsCount.map .methods
  | .readingClientConnectionRequest => some .request
  | .readingDomainNameLength => some .domainNameLength
  | .readingAddress =>
      match session.addressType with
      | none => none
      | some .ipv4 => some (.address .ipv4)
      | some .domainName => session.domainNameLength.map fun length => .address (.domainName length)
      | some .ipv6 => some (.address .ipv6)
  | .connectingToDestination | .proxyingRequests => none

/-- What a completion with a result that is no error makes the session decide:
the bytes a read brought are decoded with those held, and those held are
decoded when the reply to the greeting has been written. -/
def Session.decision (session : Session) (type : EventType) (res : Int) (data : List Byte) :
    Option Decision :=
  if session.isFailed then none
  else
    match type with
    | .clientRead =>
        if 0 < res then session.phase.map fun phase => decode phase (session.readBuffer ++ data)
        else none
    | .clientWrite =>
        if session.state = .readingAuthMethods ∧ 0 ≤ res ∧
            res.toNat = session.writeClientBuffer.length then
          some (decode .request session.readBuffer)
        else none
    | .clientAccept | .destinationConnect | .destinationRead | .destinationWrite => none

theorem Session.InPhase.phase_eq {session : Session} {phase : Phase}
    (inPhase : session.InPhase phase) : session.phase = some phase := by
  have knows := inPhase.knows
  cases phase with
  | greeting => simp [Session.phase, inPhase.state, Phase.state]
  | methods count =>
      have known : session.authMethodsCount = some count := knows
      simp [Session.phase, inPhase.state, Phase.state, known]
  | request => simp [Session.phase, inPhase.state, Phase.state]
  | domainNameLength => simp [Session.phase, inPhase.state, Phase.state]
  | address kind =>
      cases kind with
      | ipv4 =>
          have known : session.addressType = some .ipv4 := knows
          simp [Session.phase, inPhase.state, Phase.state, known]
      | domainName length =>
          have known : session.addressType = some .domainName := knows.1
          have counted : session.domainNameLength = some length := knows.2
          simp [Session.phase, inPhase.state, Phase.state, known, counted]
      | ipv6 =>
          have known : session.addressType = some .ipv6 := knows
          simp [Session.phase, inPhase.state, Phase.state, known]

theorem Session.phase_of_connected {session : Session} (after : ¬ session.state.BeforeConnect) :
    session.phase = none := by
  cases state : session.state with
  | connectingToDestination | proxyingRequests => simp [Session.phase, state]
  | _ => exact absurd ⟨by simp [state], by simp [state]⟩ after

/-- There is nothing to decide for a session that has failed or got past the
handshake, nor on an error or at the end of the client's bytes. -/
theorem Session.decision_eq_none {session : Session} {type : EventType} {res : Int}
    {data : List Byte} (idle : session.isFailed = true ∨ ¬ session.state.BeforeConnect ∨ res < 0 ∨
      (res = 0 ∧ type = .clientRead)) : session.decision type res data = none := by
  unfold Session.decision
  rcases idle with failed | after | failing | ⟨ended, reading⟩
  · rw [if_pos failed]
  · have notMethods : session.state ≠ .readingAuthMethods := by
      intro state
      rw [state] at after
      exact after (by decide)
    split
    · rfl
    · cases type <;> simp [Session.phase_of_connected after, notMethods]
  · split
    · rfl
    · cases type <;> simp [Int.not_lt.mpr (Int.le_of_lt failing), Int.not_le.mpr failing]
  · subst ended reading
    split <;> rfl

namespace Server

variable {server : Server} {index : Nat} {sqe : Sqe} {res : Int} {data : List Byte}
  {answers : Answers} {event : Event} {session : Session} {rest : List Request}

theorem Concerns.received (concerns : server.Concerns index sqe res data answers event session rest)
    (asked : (⟨event.type, sqe.operation⟩ : Request) =
      session.clientReadRequest server.config.isRoot) (early : session.state ≠ .proxyingRequests)
    (positive : 0 < res) :
    (server.retire index sqe res data).bufferPool.buffers.load session.buffer0.first res.toNat =
      data := by
  have operation : sqe.operation = (session.clientReadRequest server.config.isRoot).operation :=
    congrArg Request.operation asked
  have yields := concerns.completes.yields
  simp only [operation, Session.clientReadRequest] at yields
  obtain ⟨measured, -⟩ := yields.resolve_left (by omega)
  have length : res.toNat = data.length := by omega
  rw [retire_buffers, length]
  exact concerns.load_landed operation (Int.le_of_lt positive) (concerns.intact early)

theorem Concerns.decision_of_decoded {phase : Phase}
    (concerns : server.Concerns index sqe res data answers event session rest)
    (asked : (⟨event.type, sqe.operation⟩ : Request) =
      session.clientReadRequest server.config.isRoot)
    (inPhase : session.InPhase phase) (healthy : session.isFailed = false) (positive : 0 < res) :
    session.decision event.type res data = some (decode phase
      (((server.retire index sqe res data).callOn session).forgetEvent.receive
        res.toNat).self.readBuffer) := by
  have reading : event.type = .clientRead := congrArg Request.type asked
  have appended : (((server.retire index sqe res data).callOn session).forgetEvent.receive
      res.toNat).self.readBuffer = session.readBuffer ++ data :=
    congrArg (session.readBuffer ++ ·) (concerns.received asked inPhase.early positive)
  simp [Session.decision, healthy, reading, positive, inPhase.phase_eq, appended]

theorem Concerns.decision_of_methodSent
    (asked : (⟨event.type, sqe.operation⟩ : Request) = session.pendingWrite server.config.isRoot)
    (state : session.state = .readingAuthMethods) (healthy : session.isFailed = false)
    (succeeded : 0 ≤ res) (whole : res.toNat = session.writeClientBuffer.length) :
    session.decision event.type res data = some (decode .request session.readBuffer) := by
  have writing : event.type = .clientWrite := congrArg Request.type asked
  simp [Session.decision, healthy, writing, state, succeeded, whole]

/-- The reaction to a completion is to act on a decision. -/
structure Decides (server : Server) (answers : Answers) (session : Session) (res : Int)
    (rest : List Request) (reaction : Except Fault (Call × Bool)) (decision : Decision)
    (call : Call) (result : Except Fault Call) : Prop where
  handled : Handled (server.env answers) call decision result
  reacted : reaction = Call.kept result
  alone : rest = []
  fresh : call.submitted = []
  healthy : call.self.isFailed = false
  null : call.self.destinationSocket = none
  awaited : call.self.awaitingEventsCount = 1
  before : session.state.BeforeConnect
  succeeded : 0 ≤ res

/-- A reaction acts on the decision the completion makes the session take;
where there is none to take it can fault only in closing a descriptor. -/
theorem Concerns.decides_or
    (concerns : server.Concerns index sqe res data answers event session rest) :
    (∃ decision call result, session.decision event.type res data = some decision ∧
      server.Decides answers session res rest
        (Call.react (server.env answers) event.type res
          ((server.retire index sqe res data).callOn session)) decision call result) ∨
      (session.decision event.type res data = none ∧
        ∀ fault, Call.react (server.env answers) event.type res
          ((server.retire index sqe res data).callOn session) = .error fault →
            fault = .closeFailed) := by
  have reacts := concerns.reacts
  generalize asked : (⟨event.type, sqe.operation⟩ : Request) = request at reacts
  generalize Call.react (server.env answers) event.type res
    ((server.retire index sqe res data).callOn session) = reaction at reacts ⊢
  have type : event.type = request.type := congrArg Request.type asked
  have connected : session.state = .connectingToDestination ∨ session.state = .proxyingRequests →
      session.decision event.type res data = none := by
    intro state
    refine Session.decision_eq_none (.inr (.inl fun before => ?_))
    rcases state with state | state <;> simp [state, State.BeforeConnect] at before
  have closing : ∀ (call : Call) (fault : Fault),
      Call.kept call.failImmediately = .error fault → fault = .closeFailed :=
    fun _ _ failed => Call.failImmediately_error (Reacts.kept_error failed)
  have quiet : ∀ {reacted : Call × Bool} (fault : Fault),
      (Except.ok reacted : Except Fault (Call × Bool)) = .error fault → fault = .closeFailed := by
    intro reacted fault same
    cases same
  cases reacts with
  | @decoded phase result inPhase healthy null awaited positive handled =>
      refine .inl ⟨_, _, result, ?_, handled, rfl, rfl, rfl, healthy, null, ?_,
        inPhase.state ▸ phase.state_beforeConnect, Int.le_of_lt positive⟩
      · exact concerns.decision_of_decoded asked inPhase healthy positive
      · have counted : session.awaitingEventsCount = 2 := awaited
        simp [Call.receive, callOn, counted, sizeDecrement]
  | @methodSent result state healthy null awaited succeeded whole handled =>
      refine .inl ⟨_, _, result, ?_, handled, rfl, rfl, rfl, healthy, null, ?_, ?_, succeeded⟩
      · exact decision_of_methodSent asked state healthy succeeded whole
      · have counted : session.awaitingEventsCount = 2 := awaited
        simp [Call.sent, callOn, counted, sizeDecrement]
      · have stateSession : session.state = .readingAuthMethods := state
        rw [stateSession]
        decide
  | lost before null awaited ending =>
      refine .inr ⟨Session.decision_eq_none (.inr (.inr ?_)), closing _⟩
      rcases ending with failing | ⟨ended, -, reading⟩
      · exact .inl failing
      · exact .inr ⟨ended, type.trans reading⟩
  | methodGoesOn state healthy null awaited succeeded part =>
      have writing : event.type = .clientWrite := type
      have notWhole : res.toNat ≠ session.writeClientBuffer.length := Nat.ne_of_lt part
      refine .inr ⟨?_, quiet⟩
      simp [Session.decision, writing, notWhole]
  | refusalSent before failed => exact .inr ⟨Session.decision_eq_none (.inl failed), quiet⟩
  | deleted after => exact .inr ⟨Session.decision_eq_none (.inr (.inl after)), quiet⟩
  | hungUp state => exact .inr ⟨connected (.inr state), closing _⟩
  | connected state | grantGoesOn state | granted state =>
      exact .inr ⟨connected (.inl state), quiet⟩
  | upRead state | upWritten state | upGoesOn state | downRead state | downWritten state
  | downGoesOn state => exact .inr ⟨connected (.inr state), quiet⟩

theorem Concerns.decides (concerns : server.Concerns index sqe res data answers event session rest)
    {decision : Decision} (decided : session.decision event.type res data = some decision) :
    ∃ call result, server.Decides answers session res rest
      (Call.react (server.env answers) event.type res
        ((server.retire index sqe res data).callOn session)) decision call result := by
  rcases concerns.decides_or with ⟨same, call, result, taken, decides⟩ | ⟨undecided, -⟩
  · rw [decided] at taken
    cases taken
    exact ⟨call, result, decides⟩
  · rw [undecided] at decided
    cases decided

end Server

/-- Acting on a decision faults where a descriptor cannot be closed, where a
name resolves to another family in a build with assertions, and where the
destination socket could not be created. -/
inductive Handled.Faulty (env : Env) : Decision → Fault → Prop where
  | closing {decision : Decision} : Faulty env decision .closeFailed
  | otherFamily {destination : Destination} {rest : List Byte} :
      env.resolve destination = .otherFamily → env.ndebug = false →
      Faulty env (.connect destination rest) .assertionFailed
  | socketError {destination : Destination} {rest : List Byte} {address : SockAddr}
      {errno : Int} :
      (env.resolve destination).sockAddr? destination.port = some address →
      env.socket = .error errno →
      Faulty env (.connect destination rest) .nullDestinationSocket

theorem Handled.faulty {env : Env} {call : Call} {decision : Decision} {fault : Fault}
    (handled : Handled env call decision (.error fault)) : Handled.Faulty env decision fault := by
  generalize ended : Except.error fault = result at handled
  cases handled with
  | close =>
      cases Call.failImmediately_error ended.symm
      exact .closing
  | otherFamily _ _ other =>
      unfold Env.unreachable at ended
      split at ended
      · cases ended
      · next asserting =>
          cases ended
          exact .otherFamily other (Bool.eq_false_of_not_eq_true asserting)
  | socketError resolved failed =>
      cases ended
      exact .socketError resolved failed
  | _ => cases ended

namespace Server

variable {server : Server} {index : Nat} {sqe : Sqe} {res : Int} {data : List Byte}
  {answers : Answers} {event : Event} {session : Session} {rest : List Request} {fault : Fault}

theorem Concerns.faulty (concerns : server.Concerns index sqe res data answers event session rest)
    (faulted : Call.react (server.env answers) event.type res
      ((server.retire index sqe res data).callOn session) = .error fault) :
    fault = .closeFailed ∨ ∃ decision, session.decision event.type res data = some decision ∧
      Handled.Faulty (server.env answers) decision fault := by
  rcases concerns.decides_or with ⟨decision, call, result, decided, decides⟩ | ⟨-, closing⟩
  · rw [decides.reacted] at faulted
    have handled := decides.handled
    rw [Reacts.kept_error faulted] at handled
    exact .inr ⟨decision, decided, handled.faulty⟩
  · exact .inl (closing fault faulted)

/-- From a well-formed state an iteration faults only in closing a descriptor
or in acting on the decision its completion makes a session take. -/
theorem WellFormed.faulty (wellFormed : server.WellFormed) {label : Label}
    (faults : server.Faults label fault) :
    fault = .closeFailed ∨ ∃ index res data answers found decision,
      label = .complete index res data answers ∧ server.concerned index = some found ∧
      found.session.decision found.event.type res data = some decision ∧
      Handled.Faulty (server.env answers) decision fault := by
  cases label with
  | carry index data => exact absurd faults id
  | complete index res data answers =>
      obtain ⟨sqe, completes, iterated⟩ := faults
      cases carried : sqe.userData with
      | none =>
          by_cases failing : res < 0
          · have returned : server.iterate index sqe res data answers =
                .ok (server.retire index sqe res data) := by
              simp only [iterate, eventLoopBody, carried, if_pos failing]
            rw [returned] at iterated
            cases iterated
          · obtain ⟨next, returned, -⟩ :=
              wellFormed.accepts completes carried (Int.not_lt.mp failing)
            rw [returned] at iterated
            cases iterated
      | some id =>
          obtain ⟨event, session, rest, concerns, settled⟩ := wellFormed.concerns completes carried
          rw [settled] at iterated
          cases reacted : Call.react (server.env answers) event.type res
              ((server.retire index sqe res data).callOn session) with
          | error other =>
              simp only [reacted, bind, Except.bind, Except.error.injEq] at iterated
              subst iterated
              rcases concerns.faulty reacted with closing | ⟨decision, decided, faulty⟩
              · exact .inl closing
              · exact .inr ⟨index, res, data, answers, _, decision, rfl, concerns.concerned,
                  decided, faulty⟩
          | ok reaction =>
              simp only [reacted, bind, Except.bind] at iterated
              rcases concerns.settles wellFormed carried reacted with ⟨next, returned, -⟩ | failed
              · rw [returned] at iterated
                cases iterated
              · rw [failed] at iterated
                cases iterated
                exact .inl rfl

end Server

end ModernCppHw.Socks5
