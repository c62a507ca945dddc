import ModernCppHw.Lib.Simulation
import ModernCppHw.Socks5.Connection

/-! The server in root mode against the server without registered buffers. The
methods differ in the requests they build only, so a run in root mode can be followed
without registered buffers, completion by completion. -/

set_option autoImplicit false

namespace ModernCppHw.Socks5

/-- What is asked for instead where no buffers are registered. The even ones are the
lower halves, and a read into one of these then reaches beyond its half. -/
def Operation.plain : Operation → Operation
  | .read fd buffer offset (some index) =>
      .read fd (if index % 2 = 0 then ⟨buffer.address, bufferSize⟩ else buffer) offset none
  | .write fd buffer offset _ => .write fd buffer offset none
  | operation => operation

def Request.plain (request : Request) : Request :=
  { request with operation := request.operation.plain }

def Sqe.plain (sqe : Sqe) : Sqe := { sqe with operation := sqe.operation.plain }

def Env.plain (env : Env) : Env := { env with isRoot := false }

def Config.plain (config : Config) : Config := { config with isRoot := false }

def Call.plain (call : Call) : Call :=
  { call with submitted := call.submitted.map Request.plain }

def Server.plain (server : Server) : Server :=
  { server with config := server.config.plain, ring := server.ring.map Sqe.plain }

namespace Session

theorem plain_clientReadRequest (self : Session) :
    (self.clientReadRequest true).plain = self.clientReadRequest false := by
  have even : self.buffer0Index % 2 = 0 := by
    simp only [buffer0Index, unsignedAdd, unsignedMul, unsignedModulus]
    omega
  simp [clientReadRequest, Request.plain, Operation.plain, registered, clientReadLength, even]

theorem plain_destinationReadRequest (self : Session) (socket : Socket) :
    (self.destinationReadRequest true socket).plain =
      self.destinationReadRequest false socket := by
  have odd : ¬ self.buffer1Index % 2 = 0 := by
    simp only [buffer1Index, unsignedAdd, unsignedMul, unsignedModulus]
    omega
  simp [destinationReadRequest, Request.plain, Operation.plain, registered, odd]

end Session

namespace Call

variable {env : Env} {call : Call}

@[simp] theorem plain_update (call : Call) (change : Session → Session) :
    call.plain.update change = (call.update change).plain := rfl

@[simp] theorem plain_submit (call : Call) (request : Request) :
    call.plain.submit request.plain = (call.submit request).plain := by
  simp [plain, submit]

@[simp] theorem plain_self (call : Call) : call.plain.self = call.self := rfl

@[simp] theorem plain_files (call : Call) : call.plain.files = call.files := rfl

theorem plain_unreachable (env : Env) (call : Call) :
    env.plain.unreachable call.plain = plain <$> env.unreachable call := by
  unfold Env.unreachable
  rw [apply_ite (plain <$> ·)]
  rfl

@[simp] theorem plain_destinationSocket (call : Call) :
    call.plain.destinationSocket = call.destinationSocket := rfl

theorem plain_resetDestinationSocket (call : Call) :
    call.plain.resetDestinationSocket = plain <$> call.resetDestinationSocket := by
  simp only [resetDestinationSocket, plain_files, plain_self, map_bind, map_pure]
  rfl

theorem plain_failDelayed (call : Call) :
    call.plain.failDelayed = plain <$> call.failDelayed := by
  simp only [failDelayed, plain_update, plain_resetDestinationSocket]

theorem plain_failImmediately (call : Call) :
    call.plain.failImmediately = plain <$> call.failImmediately := by
  simp only [failImmediately, plain_failDelayed, bind_map_left, map_bind, map_pure, plain_files,
    plain_self]
  rfl

theorem plain_consumeBytesFromReadBuffer (nread : Nat) (call : Call) :
    call.plain.consumeBytesFromReadBuffer nread =
      plain <$> call.consumeBytesFromReadBuffer nread := by
  unfold consumeBytesFromReadBuffer
  rw [apply_ite (plain <$> ·)]
  rfl

section

variable (root : env.isRoot = true)

include root

theorem plain_addClientReadRequest (call : Call) :
    call.plain.addClientReadRequest env.plain = (call.addClientReadRequest env).plain := by
  simp only [addClientReadRequest, root]
  rw [← plain_submit, Session.plain_clientReadRequest]
  rfl

theorem plain_addClientWriteRequest (nbytes offset : Nat) (call : Call) :
    call.plain.addClientWriteRequest env.plain nbytes offset =
      (call.addClientWriteRequest env nbytes offset).plain := by
  simp only [addClientWriteRequest, root]
  rw [← plain_submit]
  rfl

omit root in
theorem plain_addDestinationConnectRequest (call : Call) :
    call.plain.addDestinationConnectRequest = plain <$> call.addDestinationConnectRequest := by
  simp only [addDestinationConnectRequest, plain_destinationSocket, map_bind, map_pure,
    ← plain_submit]
  rfl

theorem plain_addDestinationReadRequest (call : Call) :
    call.plain.addDestinationReadRequest env.plain =
      plain <$> call.addDestinationReadRequest env := by
  simp only [addDestinationReadRequest, root, plain_destinationSocket, map_bind, map_pure,
    ← plain_submit, Session.plain_destinationReadRequest]
  rfl

theorem plain_addDestinationWriteRequest (nbytes offset : Nat) (call : Call) :
    call.plain.addDestinationWriteRequest env.plain nbytes offset =
      plain <$> call.addDestinationWriteRequest env nbytes offset := by
  simp only [addDestinationWriteRequest, root, plain_destinationSocket, map_bind, map_pure,
    ← plain_submit]
  rfl

theorem plain_writeToClient (call : Call) :
    call.plain.writeToClient env.plain = (call.writeToClient env).plain := by
  unfold writeToClient
  rw [← plain_addClientWriteRequest root]
  rfl

theorem plain_sendFailMessage (errorCode : Byte) (call : Call) :
    call.plain.sendFailMessage env.plain errorCode =
      plain <$> call.sendFailMessage env errorCode := by
  simp only [sendFailMessage, plain_failDelayed, bind_map_left, map_bind, map_pure, plain_update,
    plain_writeToClient root]

theorem plain_translateErrno (errorCode : Int) (call : Call) :
    call.plain.translateErrno env.plain errorCode =
      plain <$> call.translateErrno env errorCode := by
  simp only [translateErrno, plain_sendFailMessage root, apply_ite (plain <$> ·)]

omit root in
theorem plain_assignDestinationSocket (socket : Socket) (call : Call) :
    call.plain.assignDestinationSocket socket =
      plain <$> call.assignDestinationSocket socket := by
  have opened : { call.plain with files := socket.fd :: call.plain.files } =
      { call with files := socket.fd :: call.files }.plain := rfl
  simp only [assignDestinationSocket, opened, plain_resetDestinationSocket, bind_map_left, map_bind,
    map_pure, plain_update]

theorem plain_connectDestination (address : SockAddr) (call : Call) :
    call.plain.connectDestination env.plain address =
      plain <$> call.connectDestination env address := by
  unfold connectDestination
  have answered : env.plain.socket = env.socket := rfl
  rw [answered]
  cases env.socket with
  | created fd =>
      simp only [plain_assignDestinationSocket, bind_map_left, map_bind, plain_update,
        plain_addDestinationConnectRequest]
  | error errno =>
      simp only [plain_translateErrno root, bind_map_left, map_bind, plain_update,
        plain_addDestinationConnectRequest]
  | otherException => exact plain_sendFailMessage root _ _

theorem plain_connectIpv4Destination (call : Call) :
    call.plain.connectIpv4Destination env.plain = plain <$> call.connectIpv4Destination env := by
  simp only [connectIpv4Destination, plain_self, plain_connectDestination root, map_bind]

theorem plain_connectIpv6Destination (call : Call) :
    call.plain.connectIpv6Destination env.plain = plain <$> call.connectIpv6Destination env := by
  simp only [connectIpv6Destination, plain_self, plain_connectDestination root, map_bind]

theorem plain_readAddress (call : Call) :
    call.plain.readAddress env.plain = plain <$> call.readAddress env := by
  unfold readAddress
  simp only [plain_self, map_bind]
  refine bind_congr fun kind => ?_
  cases kind with
  | ipv4 =>
      simp only [map_bind, plain_update, plain_consumeBytesFromReadBuffer, bind_map_left,
        plain_connectIpv4Destination root]
  | ipv6 =>
      simp only [map_bind, plain_update, plain_consumeBytesFromReadBuffer, bind_map_left,
        plain_connectIpv6Destination root]
  | domainName =>
      simp only [map_bind, plain_update, plain_consumeBytesFromReadBuffer, bind_map_left,
        plain_self]
      refine bind_congr fun length => bind_congr fun name => bind_congr fun port =>
        bind_congr fun after => ?_
      have answered : env.plain.gethostbyname = env.gethostbyname := rfl
      rw [answered]
      cases env.gethostbyname (cString after.self.domainName) with
      | failure => exact plain_sendFailMessage root _ _
      | inet address => exact plain_connectIpv4Destination root _
      | inet6 address => exact plain_connectIpv6Destination root _
      | otherFamily => exact plain_unreachable _ _

theorem plain_readAuthMethods (call : Call) :
    call.plain.readAuthMethods env.plain = plain <$> call.readAuthMethods env := by
  simp only [readAuthMethods, plain_self, plain_update, plain_failDelayed, pure_bind,
    plain_consumeBytesFromReadBuffer, plain_writeToClient root, map_bind, bind_map_left, map_pure,
    apply_ite (plain <$> ·)]

/-! The handler that a method may call again does the same in both modes. -/

section

variable {handleClientRead plainly : Nat → Call → Except Fault Call}
  (alike : ∀ nread call, plainly nread call.plain = plain <$> handleClientRead nread call)

include alike

theorem plain_readSomeFromClient (n : Nat) (call : Call) :
    call.plain.readSomeFromClient env.plain plainly n =
      plain <$> call.readSomeFromClient env handleClientRead n := by
  unfold readSomeFromClient
  simp only [plain_update, plain_self, alike, plain_addClientReadRequest root]
  rw [apply_ite (plain <$> ·)]
  rfl

theorem plain_readFromClient (call : Call) :
    call.plain.readFromClient env.plain plainly =
      plain <$> call.readFromClient env handleClientRead := by
  unfold readFromClient
  simp only [plain_update, plain_self, alike, plain_addClientReadRequest root]
  rw [apply_ite (plain <$> ·)]
  rfl

theorem plain_readClientGreeting (call : Call) :
    call.plain.readClientGreeting env.plain plainly =
      plain <$> call.readClientGreeting env handleClientRead := by
  simp only [readClientGreeting, plain_self, plain_update, plain_failImmediately,
    plain_consumeBytesFromReadBuffer, plain_readSomeFromClient root alike, map_bind, bind_map_left,
    apply_ite (plain <$> ·)]

theorem plain_readClientConnectionRequest (call : Call) :
    call.plain.readClientConnectionRequest env.plain plainly =
      plain <$> call.readClientConnectionRequest env handleClientRead := by
  simp only [readClientConnectionRequest, plain_self, plain_update, plain_sendFailMessage root,
    plain_consumeBytesFromReadBuffer, plain_readSomeFromClient root alike, map_bind, bind_map_left,
    apply_ite (plain <$> ·)]

theorem plain_readDomainNameLength (call : Call) :
    call.plain.readDomainNameLength env.plain plainly =
      plain <$> call.readDomainNameLength env handleClientRead := by
  simp only [readDomainNameLength, plain_self, plain_update, plain_consumeBytesFromReadBuffer,
    plain_readSomeFromClient root alike, map_bind, bind_map_left]

end

theorem plain_handleClientReadNested (nesting nread : Nat) (call : Call) :
    handleClientReadNested env.plain nesting nread call.plain =
      plain <$> handleClientReadNested env nesting nread call := by
  induction nesting generalizing nread call with
  | zero => rfl
  | succ nesting ih =>
      unfold handleClientReadNested
      rw [plain_self]
      by_cases proxying : call.self.state = .proxyingRequests
      · rw [if_pos proxying, if_pos proxying, plain_update, plain_addDestinationWriteRequest root]
      · rw [if_neg proxying, if_neg proxying]
        have received : (if nread ≠ 0 then call.plain.update fun self =>
              { self with readBuffer :=
                  self.readBuffer ++ call.plain.buffers.load self.buffer0.first nread }
            else call.plain) =
            (if nread ≠ 0 then call.update fun self =>
              { self with readBuffer :=
                  self.readBuffer ++ call.buffers.load self.buffer0.first nread }
            else call).plain := by
          split <;> rfl
        rw [received]
        generalize (if nread ≠ 0 then _ else call) = later
        dsimp only
        rw [plain_self]
        by_cases waits : (!later.self.readCompleted) = true
        · rw [if_pos waits, if_pos waits, plain_addClientReadRequest root]
          rfl
        rw [if_neg waits, if_neg waits]
        cases later.self.state with
        | readingClientGreeting => exact plain_readClientGreeting root ih _
        | readingAuthMethods => exact plain_readAuthMethods root _
        | readingClientConnectionRequest => exact plain_readClientConnectionRequest root ih _
        | readingDomainNameLength => exact plain_readDomainNameLength root ih _
        | readingAddress => exact plain_readAddress root _
        | connectingToDestination | proxyingRequests => exact plain_unreachable _ _

theorem plain_handleClientRead (nread : Nat) (call : Call) :
    call.plain.handleClientRead env.plain nread = plain <$> call.handleClientRead env nread :=
  plain_handleClientReadNested root _ _ _

theorem plain_handleClientWrite (nwrite : Nat) (call : Call) :
    call.plain.handleClientWrite env.plain nwrite =
      plain <$> call.handleClientWrite env nwrite := by
  unfold handleClientWrite
  by_cases proxying : call.self.state = .proxyingRequests
  · simp only [plain_self, if_pos proxying, map_bind, apply_ite (plain <$> ·), plain_update,
      plain_addDestinationReadRequest root, plain_addClientWriteRequest root, map_pure]
  · simp only [plain_self, if_neg proxying, plain_update, plain_writeToClient root]
    by_cases enough : nwrite ≤ call.self.writeClientBuffer.length
    · simp only [if_pos enough]
      generalize (call.update _) = later
      rw [apply_ite (plain <$> ·)]
      split
      · rfl
      · cases state : later.self.state with
        | readingAuthMethods =>
            exact plain_readSomeFromClient root (plain_handleClientRead root) _ _
        | connectingToDestination =>
            simp only [plain_addDestinationReadRequest root, bind_map_left, map_bind,
              plain_readFromClient root (plain_handleClientRead root)]
        | _ => exact plain_unreachable _ _
    · simp only [if_neg enough]
      rfl

theorem plain_handleDestinationConnect (call : Call) :
    call.plain.handleDestinationConnect env.plain =
      plain <$> call.handleDestinationConnect env := by
  unfold handleDestinationConnect
  have compiled : env.plain.ndebug = env.ndebug := rfl
  rw [plain_self, compiled, apply_ite (plain <$> ·)]
  split
  · rfl
  · rw [map_bind]
    refine bind_congr fun kind => ?_
    cases kind with
    | ipv4 | ipv6 => simp only [map_bind, map_pure, plain_update, plain_writeToClient root]
    | domainName => exact plain_unreachable _ _

theorem plain_handleDestinationRead (nread : Nat) (call : Call) :
    call.plain.handleDestinationRead env.plain nread =
      (call.handleDestinationRead env nread).plain := by
  unfold handleDestinationRead
  rw [plain_update, plain_addClientWriteRequest root]

theorem plain_handleDestinationWrite (nwrite : Nat) (call : Call) :
    call.plain.handleDestinationWrite env.plain nwrite =
      plain <$> call.handleDestinationWrite env nwrite := by
  simp only [handleDestinationWrite, plain_self, plain_update, map_bind, apply_ite (plain <$> ·),
    plain_addDestinationWriteRequest root, plain_addClientReadRequest root, map_pure]

theorem plain_dispatch (type : EventType) (res : Nat) (call : Call) :
    call.plain.dispatch env.plain type res = plain <$> call.dispatch env type res := by
  cases type with
  | clientAccept => exact plain_unreachable _ _
  | clientRead =>
      simp only [dispatch, plain_handleClientRead root, plain_failImmediately,
        apply_ite (plain <$> ·)]
  | clientWrite => exact plain_handleClientWrite root _ _
  | destinationConnect => exact plain_handleDestinationConnect root _
  | destinationRead =>
      simp only [dispatch, plain_handleDestinationRead root, plain_failImmediately,
        apply_ite (plain <$> ·)]
      rfl
  | destinationWrite => exact plain_handleDestinationWrite root _ _

theorem plain_react (type : EventType) (res : Int) (call : Call) :
    call.plain.react env.plain type res =
      (fun reaction => (reaction.1.plain, reaction.2)) <$> call.react env type res := by
  unfold react
  have forgotten : call.plain.forgetEvent = call.forgetEvent.plain := rfl
  rw [forgotten]
  generalize call.forgetEvent = later
  dsimp only
  rw [plain_self]
  by_cases failing : res < 0
  · rw [if_pos failing, if_pos failing]
    by_cases exhausted : later.self.awaitingEventsCount = 0
    · rw [if_pos exhausted, if_pos exhausted]
      rfl
    · rw [if_neg exhausted, if_neg exhausted]
      simp only [plain_failImmediately, bind_map_left, map_bind, map_pure]
  rw [if_neg failing, if_neg failing]
  by_cases failed : later.self.isFailed = true
  · rw [if_pos failed, if_pos failed]
    rfl
  · rw [if_neg failed, if_neg failed]
    simp only [plain_dispatch root, bind_map_left, map_bind, map_pure, plain_self]
    rfl

end

end Call

theorem Request.Confined.length_le {request : Request} {session : Session}
    (confined : request.Confined session.block) :
    request.operation.region.length ≤ bufferSize := by
  by_contra larger
  have first := Region.mem_addresses.mp (confined.within (Region.mem_addresses.mpr
    ⟨Nat.le_refl _, by omega⟩ : request.operation.region.address ∈ _))
  have last := Region.mem_addresses.mp (confined.within (Region.mem_addresses.mpr
    ⟨by omega, by omega⟩ : request.operation.region.address + bufferSize ∈ _))
  simp only [Session.block] at first last
  omega

/-- Nothing is asked for beyond what the larger request asks for. -/
theorem Operation.plain_yields {files : List Fd} {res : Int} {data : List Byte}
    {operation : Operation} (bounded : operation.region.length ≤ bufferSize)
    (yields : operation.Yields files res data) : operation.plain.Yields files res data := by
  cases operation with
  | accept | connect | write => exact yields
  | read fd buffer offset bufferIndex =>
      cases bufferIndex with
      | none => exact yields
      | some index =>
          refine yields.imp_right fun ⟨count, fits⟩ => ⟨count, ?_⟩
          split
          · exact Nat.le_trans fits bounded
          · exact fits

theorem Operation.plain_continues {underway : List Byte} {res : Int} {data : List Byte}
    {operation : Operation} :
    operation.plain.Continues underway res data ↔ operation.Continues underway res data := by
  cases operation with
  | accept | connect | write => exact .rfl
  | read fd buffer offset bufferIndex => cases bufferIndex <;> exact .rfl

namespace Server

variable {server next : Server} {index : Nat} {sqe : Sqe} {res : Int} {data : List Byte}
  {answers : Answers} {label : Label}

theorem plain_submitAll (client : SessionId) (requests : List Request) (server : Server) :
    submitAll client (requests.map Request.plain) server.plain =
      plain <$> submitAll client requests server := by
  induction requests generalizing server with
  | nil => rfl
  | cons request rest ih =>
      have submitted : server.plain.submit client request.plain =
          plain <$> server.submit client request := by
        simp only [submit, map_bind, map_pure, plain, List.map_append]
        rfl
      simp only [submitAll, List.map_cons, submitted, bind_map_left, map_bind, ih]

theorem plain_call {method plainly : Call → Except Fault Call}
    (alike : ∀ call, plainly call.plain = Call.plain <$> method call) (client : SessionId)
    (server : Server) : server.plain.call client plainly = plain <$> server.call client method := by
  simp only [call, map_bind]
  refine bind_congr fun self => ?_
  have begun : plainly ⟨self, server.plain.bufferPool.buffers, server.plain.files, []⟩ =
      Call.plain <$> method ⟨self, server.bufferPool.buffers, server.files, []⟩ :=
    alike ⟨self, server.bufferPool.buffers, server.files, []⟩
  rw [begun, bind_map_left]
  exact bind_congr fun after => plain_submitAll client after.submitted (server.commit client after)

theorem plain_deleteSession (client : SessionId) (server : Server) :
    server.plain.deleteSession client = plain <$> server.deleteSession client := by
  simp only [deleteSession, map_bind, map_pure]
  rfl

theorem plain_settle (client : SessionId) (id : EventId) (server : Server)
    (reaction : Call × Bool) :
    server.plain.settle client id (reaction.1.plain, reaction.2) =
      plain <$> server.settle client id reaction := by
  have committed : server.plain.commit client reaction.1.plain =
      (server.commit client reaction.1).plain := rfl
  have submitted : reaction.1.plain.submitted = reaction.1.submitted.map Request.plain := rfl
  simp only [settle, committed, submitted, plain_submitAll, bind_map_left, map_bind]
  refine bind_congr fun later => ?_
  cases reaction.2 with
  | false => rfl
  | true =>
      simp only [if_true, plain_deleteSession, bind_map_left, map_bind, map_pure]
      rfl

theorem plain_retire (index : Nat) (sqe : Sqe) (res : Int) (data : List Byte) (server : Server) :
    server.plain.retire index sqe.plain res data = (server.retire index sqe res data).plain := by
  have remaining : (server.ring.map Sqe.plain).eraseIdx index =
      (server.ring.eraseIdx index).map Sqe.plain := (List.eraseIdx_map _ _ _)
  by_cases failing : res < 0
  · simp only [retire, if_pos failing, plain, remaining]
    rfl
  have owner : server.plain.owner sqe.plain = server.owner sqe := rfl
  obtain ⟨operation, userData⟩ := sqe
  cases operation with
  | accept | connect | write =>
      simp only [retire, if_neg failing, plain, remaining]
      rfl
  | read fd buffer offset bufferIndex =>
      cases bufferIndex with
      | none =>
          simp only [retire, if_neg failing, plain, remaining]
          rfl
      | some index =>
          simp only [retire, if_neg failing, plain, remaining]
          by_cases even : index % 2 = 0
          · simp only [Sqe.plain, Operation.plain, if_pos even]
            rfl
          · simp only [Sqe.plain, Operation.plain, if_neg even]
            rfl

theorem plain_handleAccept (root : server.config.isRoot = true) (answers : Answers) (fd : Fd) :
    server.plain.handleAccept answers fd = plain <$> server.handleAccept answers fd := by
  have armed : server.plain.addClientAcceptRequest = server.addClientAcceptRequest.plain := by
    simp only [addClientAcceptRequest, plain, List.map_append]
    rfl
  unfold handleAccept
  rw [armed]
  dsimp only
  have pool : server.addClientAcceptRequest.plain.bufferPool =
      server.addClientAcceptRequest.bufferPool := rfl
  rw [pool]
  cases obtained : server.addClientAcceptRequest.bufferPool.obtainFreeBuffer with
  | none =>
      simp only [map_bind, map_pure]
      rfl
  | some pair =>
      obtain ⟨bufferIndex, bufferPool⟩ := pair
      have rooted : (server.addClientAcceptRequest.env answers).isRoot = true := root
      exact plain_call (fun call => Call.plain_readSomeFromClient rooted
        (Call.plain_handleClientRead rooted) 3 call) server.sessions.next
          { server.addClientAcceptRequest with
            bufferPool
            sessions := server.sessions.create { fd, bufferIndex, awaitingEventsCount := 1 } }

theorem plain_iterate (root : server.config.isRoot = true) (wellFormed : server.WellFormed)
    (completes : server.Completes index sqe res data answers) :
    server.plain.iterate index sqe.plain res data answers =
      plain <$> server.iterate index sqe res data answers := by
  unfold iterate
  rw [plain_retire]
  cases carried : sqe.userData with
  | none =>
      have unowned : sqe.plain.userData = none := carried
      simp only [eventLoopBody, unowned, apply_ite (plain <$> ·)]
      have rooted : (server.retire index sqe res data).config.isRoot = true := by
        rw [retire_config]
        exact root
      rw [plain_handleAccept rooted]
      rfl
  | some id =>
      obtain ⟨event, self, owned, filled, live⟩ :=
        wellFormed.owned (List.mem_of_getElem? completes.inFlight) carried
      have filledStill : (server.retire index sqe res data).eventPool.events id = some event := by
        rw [retire_eventPool]
        exact filled
      have liveStill : (server.retire index sqe res data).sessions.get? event.client =
          some self := by
        rw [retire_sessions]
        exact live
      have rooted : ((server.retire index sqe res data).env answers).isRoot = true := by
        simp only [env, retire_config, root]
      have carrying : sqe.plain.userData = some id := carried
      have followed : (server.retire index sqe res data).plain.eventLoopBody answers
          ⟨some id, res⟩ = _ := eventLoopBody_eq filledStill liveStill
      have reacted : Call.react ((server.retire index sqe res data).plain.env answers) event.type
          res ((server.retire index sqe res data).plain.callOn self) = _ :=
        Call.plain_react rooted event.type res ((server.retire index sqe res data).callOn self)
      rw [carrying, followed, reacted, eventLoopBody_eq filledStill liveStill, bind_map_left,
        map_bind]
      exact bind_congr fun reaction => plain_settle _ _ _ reaction

theorem plain_start (config : Config) : (Server.start config).plain = Server.start config.plain :=
  rfl

/-- Each step in root mode is one without registered buffers. -/
theorem plain_step (root : server.config.isRoot = true) (wellFormed : server.WellFormed)
    (stepped : Step server label next) : Step server.plain label next.plain := by
  have confined : ∀ {index : Nat} {sqe : Sqe}, server.ring[index]? = some sqe →
      sqe.operation.region.length ≤ bufferSize := by
    intro index sqe inFlight
    have inRing := List.mem_of_getElem? inFlight
    cases carried : sqe.userData with
    | none =>
        rw [wellFormed.accepting sqe inRing carried]
        exact Nat.zero_le _
    | some id =>
        obtain ⟨event, self, owned, -, live⟩ := wellFormed.owned inRing carried
        exact ((wellFormed.consistent _ _ live).confined
          (mem_requestsOf.mpr ⟨sqe, inRing, event, owned, rfl, rfl⟩)).length_le
  have entry : ∀ {index : Nat} {sqe : Sqe}, server.ring[index]? = some sqe →
      server.plain.ring[index]? = some sqe.plain := by
    intro index sqe inFlight
    simp only [plain, List.getElem?_map, inFlight, Option.map_some]
  cases stepped with
  | @complete _ index sqe res data answers completes iterated =>
      refine .complete ⟨entry completes.inFlight,
        Operation.plain_yields (confined completes.inFlight) completes.yields, completes.fresh,
        completes.continues.imp_right Operation.plain_continues.mpr⟩ ?_
      rw [plain_iterate root wellFormed completes, iterated]
      rfl
  | @fill index sqe fd buffer offset bufferIndex data inFlight reading fits =>
      have bounded := confined inFlight
      have placed := entry inFlight
      obtain ⟨operation, userData⟩ := sqe
      cases reading
      cases bufferIndex with
      | none => exact .fill placed rfl fits
      | some number =>
          -- a read into the lower half may be filled up to the end of the block
          have larger : (server.underwayFor ⟨.read fd buffer offset (some number),
              userData⟩).length + data.length ≤
              (if number % 2 = 0 then
                (⟨buffer.address, bufferSize⟩ : Region) else buffer).length := by
            split
            · exact Nat.le_trans fits bounded
            · exact fits
          have stored : server.plain.deliver
              (Sqe.plain ⟨.read fd buffer offset (some number), userData⟩)
              (if number % 2 = 0 then ⟨buffer.address, bufferSize⟩ else buffer) data =
                (server.deliver ⟨.read fd buffer offset (some number), userData⟩ buffer
                  data).plain := by
            simp only [deliver]
            split <;> rfl
          rw [← stored]
          exact .fill placed rfl larger
  | @collect index sqe fd buffer offset bufferIndex data inFlight writing fits upcoming =>
      have placed := entry inFlight
      obtain ⟨operation, userData⟩ := sqe
      cases writing
      have taken : Step server.plain (.carry index data) (server.plain.collect _ data) :=
        .collect placed rfl fits upcoming
      exact taken

end Server

/-- A read asks for half a block. -/
def Operation.ReadsHalf (operation : Operation) : Prop :=
  ∀ fd buffer offset bufferIndex, operation = .read fd buffer offset bufferIndex →
    buffer.length = halfBufferSize

theorem Session.Consistent.readsHalf {session : Session} {requests : List Request}
    (consistent : session.Consistent true requests)
    (going : session.isFailed = false ∨ session.state.BeforeConnect) :
    ∀ request ∈ requests, request.operation.ReadsHalf := by
  have reads : (session.clientReadRequest true).operation.ReadsHalf := by
    rintro fd buffer offset bufferIndex ⟨⟩
    rfl
  intro request member
  cases consistent with
  | reading =>
      cases List.mem_singleton.mp member
      exact reads
  | replying | granting | refusing | connecting =>
      cases List.mem_singleton.mp member
      nofun
  | stalled | leaked => cases member
  | proxying _ up down both =>
      rcases List.mem_pair.mp (both.mem_iff.mp member) with rfl | rfl
      · cases up with
        | read => exact reads
        | write => nofun
      · cases down with
        | read =>
            rintro fd buffer offset bufferIndex ⟨⟩
            rfl
        | write => nofun
  | draining state _ _ failed =>
      rcases going with healthy | before
      · cases healthy.symm.trans failed
      · exact absurd state before.2

open Transition

theorem reachable_readsHalf {config : Config} (root : config.isRoot = true) {server : Server}
    (reached : (eventLoop config).Reachable server) :
    ∀ sqe ∈ server.ring, sqe.operation.ReadsHalf := by
  intro sqe member
  have wellFormed := reachable_wellFormed reached
  cases carried : sqe.userData with
  | none =>
      rw [wellFormed.accepting sqe member carried]
      nofun
  | some id =>
      obtain ⟨event, self, owned, -, live⟩ := wellFormed.owned member carried
      exact reachable_requests (fun _ request => request.operation.ReadsHalf)
        (fun _ _ consistent going => (root ▸ consistent).readsHalf going) (fun _ _ _ law => law)
        reached _ _ live _ (Server.mem_requestsOf.mpr ⟨sqe, member, event, owned, rfl, rfl⟩)

namespace Server

variable {server : Server} {image : Server} {label : Label}

/-- What has been stored for a read by the end of the step is no more than half a block. -/
def Narrow (server : Server) : Label → Prop
  | .complete index res data _ =>
      ∀ sqe ∈ server.ring[index]?, ∀ fd buffer offset bufferIndex,
        sqe.operation = .read fd buffer offset bufferIndex → 0 ≤ res →
          data.length ≤ halfBufferSize
  | .carry index data =>
      ∀ sqe ∈ server.ring[index]?, ∀ fd buffer offset bufferIndex,
        sqe.operation = .read fd buffer offset bufferIndex →
          (server.underwayFor sqe).length + data.length ≤ halfBufferSize

theorem plain_narrow (halves : ∀ sqe ∈ server.ring, sqe.operation.ReadsHalf) {next : Server}
    (stepped : Step server label next) : server.plain.Narrow label := by
  have entry : ∀ {index : Nat} {sqe found : Sqe}, server.ring[index]? = some sqe →
      found ∈ server.plain.ring[index]? → found = sqe.plain := by
    intro index sqe found inFlight member
    simp only [plain, List.getElem?_map, inFlight, Option.map_some, Option.mem_some_iff] at member
    exact member.symm
  cases stepped with
  | @complete _ index sqe res data answers completes =>
      intro found inFlight fd buffer offset bufferIndex reading succeeded
      cases entry completes.inFlight inFlight
      have half := halves sqe (List.mem_of_getElem? completes.inFlight)
      have yields := completes.yields
      obtain ⟨operation, userData⟩ := sqe
      cases operation with
      | accept | connect | write => cases reading
      | read =>
          obtain ⟨-, fits⟩ := yields.resolve_left (Int.not_lt.mpr succeeded)
          exact half _ _ _ _ rfl ▸ fits
  | @fill index sqe fd buffer offset bufferIndex data inFlight reading fits =>
      intro found placed _ _ _ _ _
      cases entry inFlight placed
      have half := halves sqe (List.mem_of_getElem? inFlight) _ _ _ _ reading
      rw [half] at fits
      exact fits
  | @collect index sqe fd buffer offset bufferIndex data inFlight writing =>
      intro found placed _ _ _ _ reading
      cases entry inFlight placed
      obtain ⟨operation, userData⟩ := sqe
      cases writing
      cases reading

/-- A step without registered buffers that stores no more than half a block is one in
root mode. -/
theorem step_of_plain (root : server.config.isRoot = true) (wellFormed : server.WellFormed)
    (halves : ∀ sqe ∈ server.ring, sqe.operation.ReadsHalf) (narrow : server.plain.Narrow label)
    (stepped : Step server.plain label image) :
    ∃ next, Step server label next ∧ image = next.plain := by
  have entry : ∀ {index : Nat} {found : Sqe}, server.plain.ring[index]? = some found →
      ∃ sqe, server.ring[index]? = some sqe ∧ found = sqe.plain := by
    intro index found inFlight
    simp only [plain, List.getElem?_map] at inFlight
    obtain ⟨sqe, placed, rfl⟩ := Option.map_eq_some_iff.mp inFlight
    exact ⟨sqe, placed, rfl⟩
  cases stepped with
  | @complete _ index found res data answers completes iterated =>
      obtain ⟨sqe, inFlight, rfl⟩ := entry completes.inFlight
      have yields : sqe.operation.Yields server.files res data := by
        have wider := completes.yields
        have half := halves sqe (List.mem_of_getElem? inFlight)
        obtain ⟨operation, userData⟩ := sqe
        cases operation with
        | accept | connect | write => exact wider
        | read fd buffer offset bufferIndex =>
            cases bufferIndex with
            | none => exact wider
            | some number =>
                refine wider.imp_right fun ⟨count, _⟩ => ⟨count, ?_⟩
                rw [half _ _ _ _ rfl]
                exact narrow _ completes.inFlight _ _ _ _ rfl (count ▸ Int.natCast_nonneg _)
      have completesToo : server.Completes index sqe res data answers :=
        ⟨inFlight, yields, completes.fresh,
          completes.continues.imp_right Operation.plain_continues.mp⟩
      rw [plain_iterate root wellFormed completesToo] at iterated
      cases returned : server.iterate index sqe res data answers with
      | error fault =>
          rw [returned] at iterated
          cases iterated
      | ok next =>
          rw [returned] at iterated
          cases iterated
          exact ⟨next, .complete completesToo returned, rfl⟩
  | @fill index found fd region offset bufferIndex data inFlight reading fits =>
      obtain ⟨sqe, placed, rfl⟩ := entry inFlight
      have half := halves sqe (List.mem_of_getElem? placed)
      obtain ⟨operation, userData⟩ := sqe
      cases operation with
      | accept | connect | write => cases reading
      | read fd buffer offset bufferIndex =>
          have bounded : (server.underwayFor ⟨.read fd buffer offset bufferIndex,
              userData⟩).length + data.length ≤ buffer.length := by
            rw [half _ _ _ _ rfl]
            exact narrow (Sqe.plain _) inFlight _ _ _ _ reading
          refine ⟨_, .fill placed rfl bounded, ?_⟩
          cases bufferIndex with
          | none =>
              cases reading
              rfl
          | some number =>
              simp only [Sqe.plain, Operation.plain, Operation.read.injEq] at reading
              obtain ⟨-, rfl, -, -⟩ := reading
              simp only [deliver]
              split <;> rfl
  | @collect index found fd region offset bufferIndex data inFlight writing fits upcoming =>
      obtain ⟨sqe, placed, rfl⟩ := entry inFlight
      obtain ⟨operation, userData⟩ := sqe
      cases operation with
      | accept | connect => cases writing
      | read fd buffer offset bufferIndex => cases bufferIndex <;> cases writing
      | write fd buffer offset bufferIndex =>
          cases writing
          exact ⟨_, .collect placed rfl fits upcoming, rfl⟩

end Server

theorem simulates_plain {config : Config} (root : config.isRoot = true) :
    (eventLoop config).Simulates (fun _ _ => True) (eventLoop config.plain) Server.Narrow
      (fun _ label => some label) fun server image => image = server.plain where
  start := fun _ started => ⟨_, rfl,
    ((congrArg Server.plain started).trans (Server.plain_start config)).symm⟩
  silent := fun _ _ _ _ _ _ _ _ _ hidden => absurd hidden (Option.some_ne_none _)
  follows := by
    rintro server label next _ event reached - rfl - stepped shown
    cases shown
    have rooted : server.config.isRoot = true := by rw [reachable_config reached, root]
    exact ⟨_, Server.plain_narrow (reachable_readsHalf root reached) stepped,
      Server.plain_step rooted (reachable_wellFormed reached) stepped, rfl⟩

theorem plain_simulates {config : Config} (root : config.isRoot = true) :
    (eventLoop config.plain).Simulates Server.Narrow (eventLoop config) (fun _ _ => True)
      (fun _ label => some label) fun image server => image = server.plain where
  start := fun _ started => ⟨_, rfl,
    started.trans (Server.plain_start config).symm⟩
  silent := fun _ _ _ _ _ _ _ _ _ hidden => absurd hidden (Option.some_ne_none _)
  follows := by
    rintro _ label image server event - reached rfl narrow stepped shown
    cases shown
    have rooted : server.config.isRoot = true := by rw [reachable_config reached, root]
    obtain ⟨next, followed, same⟩ := Server.step_of_plain rooted (reachable_wellFormed reached)
      (reachable_readsHalf root reached) narrow stepped
    exact ⟨next, trivial, followed, same⟩

/-- The runs in root mode are, completion by completion, the runs without registered
buffers that store no more than half a block at a time: they go through the same
sessions, the same memory and the same transfers. -/
theorem root_runs_iff {config : Config} (root : config.isRoot = true) {image : Server}
    {labels : List Label} :
    (∃ server, image = server.plain ∧ (eventLoop config).Traces server labels) ↔
      (eventLoop config.plain).TracesWhen Server.Narrow image labels := by
  constructor
  · rintro ⟨server, rfl, run⟩
    obtain ⟨_, traced, rfl⟩ := (simulates_plain root).shows run
    exact traced
  · intro run
    obtain ⟨server, traced, same⟩ := (plain_simulates root).shows run
    exact ⟨server, same, traced⟩

/-- A session relays in both modes. -/
theorem root_runs_iff_relaying :
    ∃ server labels, (server.sessions.get? 0).any (·.state = .proxyingRequests) = true ∧
      (eventLoop (.single true)).Traces server labels ∧
      (eventLoop (Config.single true).plain).TracesWhen Server.Narrow server.plain labels := by
  obtain ⟨server, reached, relaying⟩ := Server.exists_reachable (.single true) Label.relaying
    (fun _ _ => true) (fun server => (server.sessions.get? 0).any (·.state = .proxyingRequests))
    (fun _ _ _ _ => trivial) (by decide)
  obtain ⟨labels, run⟩ := reached.shows fun _ label => some label
  exact ⟨server, labels, relaying, run, (root_runs_iff rfl).mp ⟨server, rfl, run⟩⟩

end ModernCppHw.Socks5
