import ModernCppHw.Lib.Fallible
import ModernCppHw.Socks5.Forwarding

/-! The lengths and offsets a session computes with stay in range: those of the
writes that relay payloads, of the message it writes to its client, and of the
buffer in which it collects what the client sends in the handshake. -/

set_option autoImplicit false

namespace ModernCppHw.Socks5

open Fallible

namespace Call

/-- What the result's session holds of its client's bytes is the end of what the
call's session held. -/
def Consumes (call : Call) : Except Fault Call → Prop :=
  Ensures fun after => after.self.readBuffer <:+ call.self.readBuffer

variable {env : Env} {call before : Call} {result : Except Fault Call}

theorem Consumes.of_suffix (consumes : call.Consumes result)
    (shorter : call.self.readBuffer <:+ before.self.readBuffer) : before.Consumes result :=
  consumes.weaken fun _ left => left.trans shorter

theorem Consumes.bind {next : Call → Except Fault Call} (first : call.Consumes result)
    (later : ∀ middle : Call, middle.Consumes (next middle)) :
    call.Consumes (do next (← result)) :=
  Ensures.bind fun middle ran => (later middle).of_suffix (first middle ran)

theorem consumes_ok (call : Call) : call.Consumes (.ok call) := Ensures.ok List.suffix_rfl

theorem unreachable_consumes (env : Env) (call : Call) : call.Consumes (env.unreachable call) := by
  unfold Env.unreachable
  split
  · exact call.consumes_ok
  · exact .error

theorem failDelayed_consumes (call : Call) : call.Consumes call.failDelayed :=
  Ensures.bind fun _ _ => .ok List.suffix_rfl

theorem failImmediately_consumes (call : Call) : call.Consumes call.failImmediately :=
  call.failDelayed_consumes.bind fun _ => Ensures.bind fun _ _ => .ok List.suffix_rfl

theorem consumeBytesFromReadBuffer_consumes (nread : Nat) (call : Call) :
    call.Consumes (call.consumeBytesFromReadBuffer nread) := by
  unfold consumeBytesFromReadBuffer
  split
  · exact .ok (List.drop_suffix _ _)
  · exact .error

theorem sendFailMessage_consumes (env : Env) (errorCode : Byte) (call : Call) :
    call.Consumes (call.sendFailMessage env errorCode) :=
  call.failDelayed_consumes.bind fun _ => .ok List.suffix_rfl

theorem translateErrno_consumes (env : Env) (errorCode : Int) (call : Call) :
    call.Consumes (call.translateErrno env errorCode) := by
  unfold translateErrno
  split
  · exact call.sendFailMessage_consumes env _
  split
  · exact call.sendFailMessage_consumes env _
  split
  · exact call.sendFailMessage_consumes env _
  · exact call.sendFailMessage_consumes env _

theorem connectDestination_consumes (env : Env) (address : SockAddr) (call : Call) :
    call.Consumes (call.connectDestination env address) := by
  have proceeds : ∀ middle : Call, middle.Consumes ((middle.update fun self =>
      { self with state := .connectingToDestination }).addDestinationConnectRequest) :=
    fun middle => Ensures.bind fun _ _ => .ok List.suffix_rfl
  unfold connectDestination
  split
  · refine Consumes.bind (Ensures.bind fun middle dropped => ?_) proceeds
    obtain ⟨files, -, rfl⟩ := resetDestinationSocket_ok dropped
    exact .ok List.suffix_rfl
  · exact (call.translateErrno_consumes env _).bind proceeds
  · exact call.sendFailMessage_consumes env _

theorem connectIpv4Destination_consumes (env : Env) (call : Call) :
    call.Consumes (call.connectIpv4Destination env) :=
  Ensures.bind fun _ _ => Ensures.bind fun _ _ => call.connectDestination_consumes env _

theorem connectIpv6Destination_consumes (env : Env) (call : Call) :
    call.Consumes (call.connectIpv6Destination env) :=
  Ensures.bind fun _ _ => Ensures.bind fun _ _ => call.connectDestination_consumes env _

theorem readAddress_consumes (env : Env) (call : Call) : call.Consumes (call.readAddress env) := by
  refine Ensures.bind fun addressType _ => ?_
  cases addressType with
  | ipv4 =>
      refine Ensures.bind fun _ _ => Ensures.bind fun _ _ => ?_
      exact (consumeBytesFromReadBuffer_consumes _ _).bind (connectIpv4Destination_consumes env)
  | domainName =>
      refine Ensures.bind fun _ _ => Ensures.bind fun _ _ => Ensures.bind fun _ _ => ?_
      refine (consumeBytesFromReadBuffer_consumes _ _).bind fun middle => ?_
      cases env.gethostbyname (cString middle.self.domainName) with
      | failure => exact middle.sendFailMessage_consumes env _
      | inet => exact connectIpv4Destination_consumes env _
      | inet6 => exact connectIpv6Destination_consumes env _
      | otherFamily => exact unreachable_consumes env middle
  | ipv6 =>
      refine Ensures.bind fun _ _ => Ensures.bind fun _ _ => ?_
      exact (consumeBytesFromReadBuffer_consumes _ _).bind (connectIpv6Destination_consumes env)

variable {handler : Nat → Call → Except Fault Call}

theorem readSomeFromClient_consumes (resumes : ∀ later : Call, later.Consumes (handler 0 later))
    (n : Nat) (call : Call) : call.Consumes (call.readSomeFromClient env handler n) := by
  unfold readSomeFromClient
  dsimp only
  split
  · exact resumes _
  · exact .ok List.suffix_rfl

theorem readFromClient_consumes (resumes : ∀ later : Call, later.Consumes (handler 0 later))
    (call : Call) : call.Consumes (call.readFromClient env handler) := by
  unfold readFromClient
  dsimp only
  split
  · exact resumes _
  · exact .ok List.suffix_rfl

theorem readClientGreeting_consumes (resumes : ∀ later : Call, later.Consumes (handler 0 later))
    (call : Call) : call.Consumes (call.readClientGreeting env handler) := by
  refine Ensures.bind fun _ _ => ?_
  split
  · exact call.failImmediately_consumes
  refine Ensures.bind fun count _ => ?_
  dsimp only
  split
  · exact failImmediately_consumes _
  · exact (consumeBytesFromReadBuffer_consumes _ _).bind fun middle =>
      readSomeFromClient_consumes resumes _ (middle.update _)

theorem readAuthMethods_consumes (env : Env) (call : Call) :
    call.Consumes (call.readAuthMethods env) := by
  refine Ensures.bind fun count _ => Ensures.bind fun methods _ => ?_
  have replies : ∀ middle : Call, middle.Consumes (do
      let call ← middle.consumeBytesFromReadBuffer count
      return (call.update fun self =>
        { self with writeClientBuffer := [0x05, 0x00] }).writeToClient env) := fun middle =>
    (middle.consumeBytesFromReadBuffer_consumes count).bind fun _ => .ok List.suffix_rfl
  dsimp only
  split
  · exact Consumes.bind (failDelayed_consumes _) replies
  · exact Consumes.bind (consumes_ok _) replies

theorem readClientConnectionRequest_consumes
    (resumes : ∀ later : Call, later.Consumes (handler 0 later)) (call : Call) :
    call.Consumes (call.readClientConnectionRequest env handler) := by
  refine Ensures.bind fun _ _ => ?_
  split
  · exact call.sendFailMessage_consumes env _
  refine Ensures.bind fun _ _ => ?_
  split
  · exact call.sendFailMessage_consumes env _
  refine Ensures.bind fun _ _ => ?_
  split
  · exact sendFailMessage_consumes env _ _
  refine Ensures.bind fun _ _ => (consumeBytesFromReadBuffer_consumes _ _).bind fun middle => ?_
  repeat' split
  · exact readSomeFromClient_consumes resumes _ (middle.update _)
  · exact readSomeFromClient_consumes resumes _ (middle.update _)
  · exact readSomeFromClient_consumes resumes _ (middle.update _)
  · exact middle.sendFailMessage_consumes env _

theorem readDomainNameLength_consumes (resumes : ∀ later : Call, later.Consumes (handler 0 later))
    (call : Call) : call.Consumes (call.readDomainNameLength env handler) := by
  refine Ensures.bind fun _ _ => (consumeBytesFromReadBuffer_consumes _ _).bind fun middle => ?_
  exact readSomeFromClient_consumes resumes _ (middle.update _)

/-- Whatever handlers call one another, bytes are only taken from the front. -/
theorem handleClientReadNested_consumes (env : Env) (nesting : Nat) :
    ∀ call : Call, call.Consumes (handleClientReadNested env nesting 0 call) := by
  induction nesting with
  | zero => exact fun call => .error
  | succ nesting ih =>
      intro call
      unfold handleClientReadNested
      split
      · exact Ensures.bind fun _ _ => .ok List.suffix_rfl
      · simp only [ne_eq, not_true_eq_false, if_false]
        split
        · exact .ok List.suffix_rfl
        · split
          · exact call.readClientGreeting_consumes ih
          · exact call.readAuthMethods_consumes env
          · exact call.readClientConnectionRequest_consumes ih
          · exact call.readDomainNameLength_consumes ih
          · exact call.readAddress_consumes env
          · exact unreachable_consumes env call
          · exact unreachable_consumes env call

theorem handleClientWrite_consumes (env : Env) (nwrite : Nat) (call : Call) :
    call.Consumes (call.handleClientWrite env nwrite) := by
  have resumes : ∀ later : Call, later.Consumes (handleClientRead env 0 later) :=
    handleClientReadNested_consumes env maxNesting
  have reads : ∀ middle : Call, middle.Consumes (middle.addDestinationReadRequest env) :=
    fun middle => Ensures.bind fun _ _ => .ok List.suffix_rfl
  unfold handleClientWrite
  split
  · refine Ensures.bind fun offset _ => Ensures.bind fun size _ => ?_
    split
    · exact reads call
    · exact .ok List.suffix_rfl
  · split
    · dsimp only
      split
      · exact .ok List.suffix_rfl
      · split
        · exact readSomeFromClient_consumes resumes 4 _
        · refine Consumes.bind (?_ : call.Consumes _) (readFromClient_consumes resumes)
          exact reads _
        · exact unreachable_consumes env _
    · exact .error

theorem handleDestinationConnect_consumes (env : Env) (call : Call) :
    call.Consumes (call.handleDestinationConnect env) := by
  unfold handleDestinationConnect
  split
  · exact .error
  refine Ensures.bind fun addressType _ => ?_
  cases addressType with
  | ipv4 | ipv6 => exact Ensures.bind fun _ _ => Ensures.bind fun _ _ => .ok List.suffix_rfl
  | domainName => exact unreachable_consumes env call

theorem handleDestinationWrite_consumes (env : Env) (nwrite : Nat) (call : Call) :
    call.Consumes (call.handleDestinationWrite env nwrite) := by
  refine Ensures.bind fun offset _ => Ensures.bind fun size _ => ?_
  dsimp only
  split
  · exact .ok List.suffix_rfl
  · exact Ensures.bind fun _ _ => .ok List.suffix_rfl

/-- Bytes are added only by a read of the client in the handshake. -/
theorem dispatch_consumes (env : Env) {type : EventType} {res : Nat} {call : Call}
    (silent : type = .clientRead → res ≠ 0 → call.self.state = .proxyingRequests) :
    call.Consumes (call.dispatch env type res) := by
  cases type with
  | clientAccept => exact unreachable_consumes env call
  | clientRead =>
      unfold dispatch
      dsimp only
      split
      · next some =>
          unfold handleClientRead maxNesting handleClientReadNested
          rw [if_pos (silent rfl some)]
          exact Ensures.bind fun _ _ => .ok List.suffix_rfl
      · exact call.failImmediately_consumes
  | clientWrite => exact call.handleClientWrite_consumes env res
  | destinationConnect => exact call.handleDestinationConnect_consumes env
  | destinationRead =>
      unfold dispatch
      dsimp only
      split
      · exact .ok List.suffix_rfl
      · exact call.failImmediately_consumes
  | destinationWrite => exact call.handleDestinationWrite_consumes env res

/-- What a session holds after a reaction is the end of what it held with the bytes
of a read of the handshake, and of what it held before after anything else. -/
theorem react_consumes {type : EventType} {res : Int} {after : Call} {deleted : Bool}
    (returned : call.react env type res = .ok (after, deleted)) :
    after.self.readBuffer <:+ call.self.readBuffer ∨
      (type = .clientRead ∧ call.self.state ≠ .proxyingRequests ∧ 0 < res ∧
        after.self.readBuffer <:+ (call.receive res.toNat).self.readBuffer) := by
  unfold react at returned
  dsimp only at returned
  split at returned
  · split at returned
    · cases returned
      exact .inl List.suffix_rfl
    · obtain ⟨failed, ran, same⟩ := bind_eq_ok_iff.mp returned
      cases same
      exact .inl (failImmediately_consumes call.forgetEvent _ ran)
  · next succeeded =>
      split at returned
      · cases returned
        exact .inl List.suffix_rfl
      · obtain ⟨middle, ran, same⟩ := bind_eq_ok_iff.mp returned
        cases same
        by_cases reads : type = .clientRead ∧ call.self.state ≠ .proxyingRequests ∧ res ≠ 0
        · obtain ⟨rfl, early, some⟩ := reads
          refine .inr ⟨rfl, early, by omega, ?_⟩
          have nonzero : res.toNat ≠ 0 := by omega
          simp only [dispatch, if_pos nonzero] at ran
          have healthy : call.forgetEvent.self.state ≠ .proxyingRequests := early
          rw [handleClientRead_eq_nested _ healthy] at ran
          exact handleClientReadNested_consumes env maxNesting
            (call.forgetEvent.receive res.toNat) _ ran
        · have silent : type = .clientRead → res.toNat ≠ 0 →
              call.forgetEvent.self.state = .proxyingRequests := by
            rintro rfl some
            by_contra early
            exact reads ⟨rfl, early, fun none => some (by rw [none]; rfl)⟩
          exact .inl (dispatch_consumes env silent _ ran)

end Call

/-! How many bytes a phase of the handshake waits for. -/

section Thresholds

variable {phase : Phase} {stream rest : List Byte}

theorem decodeAddress_threshold_le {kind : AddressKind} (short : kind.length ≤ 257)
    (waits : decodeAddress kind stream = .wait phase rest) : phase.threshold ≤ 257 := by
  unfold decodeAddress at waits
  split at waits
  · cases waits
  · cases waits
    exact short

theorem decodeDomainNameLength_threshold_le
    (waits : decodeDomainNameLength stream = .wait phase rest) : phase.threshold ≤ 257 := by
  cases stream with
  | nil =>
      cases waits
      decide
  | cons length tail =>
      refine decodeAddress_threshold_le ?_ waits
      have bounded := length.toNat_lt
      change length.toNat + 2 ≤ 257
      omega

theorem decodeRequest_threshold_le (waits : decodeRequest stream = .wait phase rest) :
    phase.threshold ≤ 257 := by
  unfold decodeRequest at waits
  split at waits
  · split at waits
    · cases waits
    · split at waits
      · exact decodeAddress_threshold_le (by decide) waits
      · split at waits
        · exact decodeDomainNameLength_threshold_le waits
        · split at waits
          · exact decodeAddress_threshold_le (by decide) waits
          · cases waits
  · cases waits
    decide

theorem decodeGreeting_threshold_le (waits : decodeGreeting stream = .wait phase rest) :
    phase.threshold ≤ 257 := by
  unfold decodeGreeting at waits
  split at waits
  · next version count first tail =>
      split at waits
      · cases waits
      · unfold decodeMethods at waits
        split at waits
        · cases waits
          exact Nat.le_trans (Nat.le_of_lt count.toNat_lt) (by decide)
        · split at waits <;> cases waits
  · cases waits
    decide

/-- The longest is a name of 255 bytes with its port. -/
theorem Tells.threshold_le (tells : Tells stream (.wait phase rest)) : phase.threshold ≤ 257 := by
  rcases tells with greeting | ⟨after, -, request⟩
  · exact decodeGreeting_threshold_le greeting
  · exact decodeRequest_threshold_le request

end Thresholds

/-- The length of the reads that bring the payloads of a direction. -/
def Direction.readLength (direction : Direction) (isRoot : Bool) : Nat :=
  match direction with
  | .up => Session.clientReadLength isRoot
  | .down => halfBufferSize

/-- A write of a payload asks for what is left of it by the session's fields. -/
def Session.Measures (session : Session) (isRoot : Bool) (request : Request) : Prop :=
  session.state = .proxyingRequests → ∀ direction : Direction,
    request.type = direction.writeType →
      ∃ size offset, direction.writeSize session = some size ∧
        direction.writeOffset session = some offset ∧ offset ≤ size ∧
        size ≤ direction.readLength isRoot ∧ request.operation.region.length = size - offset

namespace Session

variable {isRoot : Bool} {session : Session} {socket : Socket} {request : Request}
  {requests : List Request}

theorem UpRequest.measures (up : session.UpRequest isRoot socket request) :
    session.Measures isRoot request := by
  intro _ direction writing
  cases Direction.Includes.unique (.inr writing) up.included
  cases up with
  | read => cases writing
  | write sized placed ordered fits => exact ⟨_, _, sized, placed, by omega, fits, rfl⟩

theorem DownRequest.measures (down : session.DownRequest isRoot socket request) :
    session.Measures isRoot request := by
  intro _ direction writing
  cases Direction.Includes.unique (.inr writing) down.included
  cases down with
  | read => cases writing
  | write sized placed part fits => exact ⟨_, _, sized, placed, Nat.le_of_lt part, fits, rfl⟩

theorem Consistent.measures (consistent : session.Consistent isRoot requests)
    (going : session.isFailed = false ∨ session.state.BeforeConnect) (member : request ∈ requests) :
    session.Measures isRoot request := by
  by_cases proxying : session.state = .proxyingRequests
  · cases consistent with
    | proxying _ up down both =>
        rcases List.mem_pair.mp (both.mem_iff.mp member) with rfl | rfl
        · exact up.measures
        · exact down.measures
    | draining _ _ _ failed =>
        rcases going with healthy | before
        · cases healthy.symm.trans failed
        · exact absurd proxying before.2
    | reading inPhase => exact absurd proxying (inPhase.state ▸ Phase.state_beforeConnect _).2
    | replying state | stalled state | connecting state | granting state =>
        cases state.symm.trans proxying
    | refusing before | leaked before => exact absurd proxying before.2
  · exact fun state => absurd state proxying

/-- Before relaying a request of the client is a read by a session that waits for
more of the handshake, or the write of a message that fits the upper half. -/
theorem Consistent.early_lengths (consistent : session.Consistent isRoot requests)
    (early : session.state ≠ .proxyingRequests) (member : request ∈ requests) :
    (request.type = .clientRead →
      request.operation.region.length = clientReadLength isRoot ∧ session.isFailed = false) ∧
    (request.type = .clientWrite → request.operation.region.length ≤ halfBufferSize) := by
  cases consistent with
  | reading _ _ healthy =>
      cases List.mem_singleton.mp member
      exact ⟨fun _ => ⟨rfl, healthy⟩, fun other => by cases other⟩
  | replying | granting | refusing =>
      cases List.mem_singleton.mp member
      exact ⟨fun other => (by cases other), fun _ => Nat.min_le_left _ _⟩
  | stalled | leaked => cases member
  | connecting =>
      cases List.mem_singleton.mp member
      exact ⟨fun other => (by cases other), fun other => by cases other⟩
  | proxying state | draining state => exact absurd state early

end Session

namespace Server

variable {config : Config} {server : Server} {client : SessionId} {session : Session}
  {request : Request}

open Transition

theorem reachable_measures (reached : (eventLoop config).Reachable server) :
    ∀ client session, server.sessions.get? client = some session →
      ∀ request ∈ server.requestsOf client, session.Measures config.isRoot request :=
  reachable_requests (fun session request => session.Measures config.isRoot request)
    (fun _ _ consistent going _ member => consistent.measures going member)
    (fun session awaited request measures proxying direction writing => by
      obtain ⟨size, offset, sized, placed, rest⟩ := measures proxying direction writing
      cases direction <;> exact ⟨size, offset, sized, placed, rest⟩) reached

/-- A session that reads its client in the handshake holds less than it waits for. -/
theorem held_of_reading (reached : (eventLoop config).Reachable server)
    (live : server.sessions.get? client = some session)
    (early : session.state ≠ .proxyingRequests) (member : request ∈ server.requestsOf client)
    (reading : request.type = .clientRead) : session.readBuffer.length ≤ 256 := by
  have consistent := (reachable_wellFormed reached).consistent _ _ live
  cases reachable_negotiating reached _ _ live with
  | @reading phase _ _ _ tells =>
      have short : session.readBuffer.length < phase.threshold := by
        rcases tells with greeting | ⟨after, -, request⟩
        · exact decode_wait_short (show decode .greeting _ = _ from greeting)
        · exact decode_wait_short (show decode .request _ = _ from request)
      exact Nat.le_of_lt_succ (Nat.lt_of_lt_of_le short tells.threshold_le)
  | replying _ _ writes | halted _ _ writes => cases reading.symm.trans (writes _ member)
  | connected beyond => exact absurd ((consistent.types_of_early early member).2 reading) beyond

theorem reachable_held (reached : (eventLoop config).Reachable server) :
    ∀ client session, server.sessions.get? client = some session →
      session.readBuffer.length ≤ 256 + Session.clientReadLength config.isRoot := by
  refine reachable_connection (fun connection => connection.session.readBuffer.length ≤
    256 + Session.clientReadLength config.isRoot) ?_ reached
  intro server label client connection earlier _ _ lawful evolves
  cases evolves with
  | opened => exact Nat.zero_le _
  | undisturbed live same =>
      rw [same.session]
      exact lawful _ live
  | filled _ _ _ live | collected _ _ _ live => exact lawful _ live
  | @completed index sqe res data answers event session rest after concerns owner returned =>
      subst owner
      have own := concerns.member
      rcases Call.react_consumes returned with fewer | ⟨reading, early, positive, received⟩
      · exact Nat.le_trans fewer.length_le (lawful _ concerns.live)
      · have held := held_of_reading earlier concerns.live early own reading
        have length := ((concerns.consistent.early_lengths early own).1 reading).1
        have bounded := concerns.bounded
        rw [reachable_config earlier] at length
        have together := received.length_le
        simp only [Call.receive, Call.update, List.length_append, Memory.length_load] at together
        have kept : ((server.retire index sqe res data).callOn session).self.readBuffer =
            session.readBuffer := rfl
        rw [kept] at together
        dsimp only at length ⊢
        omega

end Server

open Transition

theorem Handled.Faulty.allowed {env : Env} {decision : Decision} {fault : Fault}
    (faulty : Handled.Faulty env decision fault) :
    fault ≠ .outOfRange ∧ fault ≠ .uninitialised := by
  cases faulty <;> decide

/-- Whatever completes, payloads are written by lengths in range, no vector is read
or erased past its end, no field is read before it is set, a message is copied only
into the upper half, and the bytes held of a client stay few. -/
theorem lengths_in_range {config : Config} {server : Server}
    (reached : (eventLoop config).Reachable server) :
    (∀ client session, server.sessions.get? client = some session →
      session.readBuffer.length ≤ 256 + Session.clientReadLength config.isRoot ∧
      ∀ request ∈ server.requestsOf client,
        session.Measures config.isRoot request ∧
        (session.state ≠ .proxyingRequests →
          (request.type = .clientRead →
            session.readBuffer.length + request.operation.region.length ≤
              256 + Session.clientReadLength config.isRoot) ∧
          (request.type = .clientWrite →
            request.operation.region.length ≤ halfBufferSize))) ∧
    (∀ label, ¬ server.Faults label .outOfRange ∧ ¬ server.Faults label .uninitialised) ∧
    ∀ env (call : Call) address,
      address ∉ Region.addresses ⟨call.self.buffer1.first, halfBufferSize⟩ →
        (call.writeToClient env).buffers address = call.buffers address := by
  have wellFormed := reachable_wellFormed reached
  have allowed : ∀ {label : Label} {fault : Fault}, server.Faults label fault →
      fault ≠ .outOfRange ∧ fault ≠ .uninitialised := by
    intro label fault faults
    rcases wellFormed.faulty faults with rfl | ⟨_, _, _, _, _, _, -, -, -, faulty⟩
    · decide
    · exact faulty.allowed
  refine ⟨fun client session live => ⟨Server.reachable_held reached client session live,
    fun request member => ⟨Server.reachable_measures reached client session live request member,
      fun early => ?_⟩⟩,
    fun label => ⟨fun faults => (allowed faults).1 rfl, fun faults => (allowed faults).2 rfl⟩,
    fun env call address => Call.writeToClient_outside env call⟩
  have lengths := (wellFormed.consistent _ _ live).early_lengths early member
  refine ⟨fun reading => ?_, lengths.2⟩
  have held := Server.held_of_reading reached live early member reading
  have length := (lengths.1 reading).1
  rw [reachable_config reached] at length
  rw [length]
  exact Nat.add_le_add_right held _

/-- Three bytes of a client are to be written on, of which one has been. -/
theorem lengths_in_range_relaying :
    ∃ server session, (eventLoop (.single true)).Reachable server ∧
      server.sessions.get? 0 = some session ∧ session.destinationWriteSize = some 3 ∧
      session.destinationWriteOffset = some 1 ∧
      ∃ request ∈ server.requestsOf 0, request.type = .destinationWrite ∧
        session.Measures true request := by
  obtain ⟨server, reached, shown⟩ := Server.exists_reachable (.single true)
    (Label.relaying ++ [.complete 2 3 [7, 8, 9] .none, .complete 2 1 [] .none]) (fun _ _ => true)
    (fun server => (∃ session ∈ server.sessions.get? 0, session.destinationWriteSize = some 3 ∧
        session.destinationWriteOffset = some 1) ∧
      ∃ request ∈ server.requestsOf 0, request.type = .destinationWrite)
    (fun _ _ _ _ => trivial) (by decide)
  obtain ⟨⟨session, live, size, offset⟩, request, member, writing⟩ := of_decide_eq_true shown
  exact ⟨server, session, reached, live, size, offset, request, member, writing,
    (((lengths_in_range reached).1 0 session live).2 request member).1⟩

end ModernCppHw.Socks5
