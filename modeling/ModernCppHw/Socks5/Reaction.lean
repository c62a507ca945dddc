import ModernCppHw.Socks5.SessionInvariant

/-! What the loop does with a session when one of its requests completes. -/

set_option autoImplicit false

namespace ModernCppHw.Socks5

namespace Call

/-- What the loop does with a session for one of its completions, up to the
deletion it may order. -/
def react (env : Env) (type : EventType) (res : Int) (call : Call) :
    Except Fault (Call × Bool) := do
  let call := call.forgetEvent
  if res < 0 then
    if call.self.awaitingEventsCount = 0 then return (call, true)
    else return (← call.failImmediately, false)
  else if call.self.isFailed then
    return (call, decide (call.self.awaitingEventsCount = 0))
  else
    let call ← call.dispatch env type res.toNat
    return (call, decide (call.self.isFailed ∧ call.self.awaitingEventsCount = 0))

/-- The call goes on and the session is kept. -/
def kept : Except Fault Call → Except Fault (Call × Bool) :=
  Except.map fun call => (call, false)

/-- What is left of the last message after `nwrite` bytes of it were written. -/
def sent (nwrite : Nat) (call : Call) : Call :=
  call.update fun self => { self with writeClientBuffer := self.writeClientBuffer.drop nwrite }

/-- The reply to a connect request that succeeded. -/
def grantMessage : SockAddr → List Byte
  | .inet address port => [0x05, 0x00, 0x00, 0x01] ++ address.toList ++ port.toList
  | .inet6 address port => [0x05, 0x00, 0x00, 0x04] ++ address.toList ++ port.toList

/-- The requests of a session whose destination socket is `socket`. -/
def readDestination (env : Env) (socket : Socket) (call : Call) : Call :=
  call.expectEvent.submit (call.self.destinationReadRequest env.isRoot socket)

def writeDestination (env : Env) (socket : Socket) (nbytes offset : Nat) (call : Call) : Call :=
  call.expectEvent.submit (call.self.destinationWriteRequest env.isRoot socket nbytes offset)

/-- A payload of `size` bytes is on its way to the destination, `offset` of
them already taken. -/
def forwardUp (env : Env) (socket : Socket) (size offset : Nat) (call : Call) : Call :=
  (call.update fun self =>
    { self with destinationWriteSize := some size
                destinationWriteOffset := some offset }).writeDestination env socket
      (size - offset) offset

/-- The same in the direction of the client. -/
def forwardDown (env : Env) (size offset : Nat) (call : Call) : Call :=
  (call.update fun self =>
    { self with clientWriteSize := some size
                clientWriteOffset := some offset }).addClientWriteRequest env (size - offset) offset

/-- Relaying begins: the destination is read, and either the client is read or,
where it has sent early data, an empty write to the destination is requested. -/
def beginProxying (env : Env) (socket : Socket) (call : Call) : Call :=
  let call := (call.update fun self =>
    { self with state := .proxyingRequests }).readDestination env socket
  let call := call.update fun self => { self with isReadCompleted := .nonempty }
  if call.self.readBuffer = [] then call.addClientReadRequest env
  else call.forwardUp env socket 0 0

end Call

/-- What the loop makes of the completion of `request` with `res`, when the
session's other requests in flight are `rest`. -/
inductive Reacts (env : Env) (call : Call) (res : Int) :
    Request → List Request → Except Fault (Call × Bool) → Prop where
  | lost {request : Request} :
      call.self.state.BeforeConnect → call.self.destinationSocket = none →
      call.self.awaitingEventsCount = 2 →
      res < 0 ∨ (res = 0 ∧ call.self.isFailed = false ∧ request.type = .clientRead) →
      Reacts env call res request [] (Call.kept call.forgetEvent.failImmediately)
  | decoded {phase : Phase} {result : Except Fault Call} :
      call.self.InPhase phase → call.self.isFailed = false →
      call.self.destinationSocket = none → call.self.awaitingEventsCount = 2 → 0 < res →
      Handled env (call.forgetEvent.receive res.toNat)
        (decode phase (call.forgetEvent.receive res.toNat).self.readBuffer) result →
      Reacts env call res (call.self.clientReadRequest env.isRoot) [] (Call.kept result)
  | methodGoesOn :
      call.self.state = .readingAuthMethods → call.self.isFailed = false →
      call.self.destinationSocket = none → call.self.awaitingEventsCount = 2 →
      0 ≤ res → res.toNat < call.self.writeClientBuffer.length →
      Reacts env call res (call.self.pendingWrite env.isRoot) []
        (.ok ((call.forgetEvent.sent res.toNat).writeToClient env, false))
  | methodSent {result : Except Fault Call} :
      call.self.state = .readingAuthMethods → call.self.isFailed = false →
      call.self.destinationSocket = none → call.self.awaitingEventsCount = 2 →
      0 ≤ res → res.toNat = call.self.writeClientBuffer.length →
      Handled env ((call.forgetEvent.sent res.toNat).update fun self =>
          { self with state := .readingClientConnectionRequest })
        (decode .request call.self.readBuffer) result →
      Reacts env call res (call.self.pendingWrite env.isRoot) [] (Call.kept result)
  | refusalSent :
      call.self.state.BeforeConnect → call.self.isFailed = true →
      call.self.destinationSocket = none → call.self.awaitingEventsCount = 2 → 0 ≤ res →
      Reacts env call res (call.self.pendingWrite env.isRoot) [] (.ok (call.forgetEvent, false))
  | deleted {request : Request} :
      ¬ call.self.state.BeforeConnect → call.self.awaitingEventsCount = 1 →
      res < 0 ∨ call.self.isFailed = true →
      Reacts env call res request [] (.ok (call.forgetEvent, true))
  | connected {socket : Socket} :
      call.self.state = .connectingToDestination → call.self.Holds socket.address →
      call.self.isFailed = false → call.self.destinationSocket = some socket →
      call.self.awaitingEventsCount = 1 → res = 0 →
      Reacts env call res (Session.destinationConnectRequest socket) []
        (.ok ((call.forgetEvent.update fun self =>
          { self with
            writeClientBuffer := Call.grantMessage socket.address }).writeToClient env, false))
  | grantGoesOn {socket : Socket} :
      call.self.state = .connectingToDestination → call.self.isFailed = false →
      call.self.destinationSocket = some socket → call.self.awaitingEventsCount = 1 →
      0 ≤ res → res.toNat < call.self.writeClientBuffer.length →
      Reacts env call res (call.self.pendingWrite env.isRoot) []
        (.ok ((call.forgetEvent.sent res.toNat).writeToClient env, false))
  | granted {socket : Socket} :
      call.self.state = .connectingToDestination → call.self.isFailed = false →
      call.self.destinationSocket = some socket → call.self.awaitingEventsCount = 1 →
      0 ≤ res → res.toNat = call.self.writeClientBuffer.length →
      Reacts env call res (call.self.pendingWrite env.isRoot) []
        (.ok ((call.forgetEvent.sent res.toNat).beginProxying env socket, false))
  | hungUp {socket : Socket} {request other : Request} :
      call.self.state = .proxyingRequests → call.self.isFailed = false →
      call.self.destinationSocket = some socket → call.self.awaitingEventsCount = 2 →
      other.Confined call.self.block →
      res < 0 ∨ (res = 0 ∧ (request.type = .clientRead ∨ request.type = .destinationRead)) →
      Reacts env call res request [other] (Call.kept call.forgetEvent.failImmediately)
  | upRead {socket : Socket} {down : Request} :
      call.self.state = .proxyingRequests → call.self.isFailed = false →
      call.self.destinationSocket = some socket → call.self.awaitingEventsCount = 2 →
      call.self.DownRequest env.isRoot socket down → 0 < res →
      res.toNat ≤ Session.clientReadLength env.isRoot →
      Reacts env call res (call.self.clientReadRequest env.isRoot) [down]
        (.ok (call.forgetEvent.forwardUp env socket res.toNat 0, false))
  | upWritten {socket : Socket} {down : Request} {size offset : Nat} :
      call.self.state = .proxyingRequests → call.self.isFailed = false →
      call.self.destinationSocket = some socket → call.self.awaitingEventsCount = 2 →
      call.self.DownRequest env.isRoot socket down →
      call.self.destinationWriteSize = some size →
      call.self.destinationWriteOffset = some offset →
      0 ≤ res → res.toNat + offset = size → size ≤ Session.clientReadLength env.isRoot →
      Reacts env call res
        (call.self.destinationWriteRequest env.isRoot socket (size - offset) offset) [down]
        (.ok (call.forgetEvent.addClientReadRequest env, false))
  | upGoesOn {socket : Socket} {down : Request} {size offset : Nat} :
      call.self.state = .proxyingRequests → call.self.isFailed = false →
      call.self.destinationSocket = some socket → call.self.awaitingEventsCount = 2 →
      call.self.DownRequest env.isRoot socket down →
      call.self.destinationWriteSize = some size →
      call.self.destinationWriteOffset = some offset →
      0 ≤ res → res.toNat + offset < size → size ≤ Session.clientReadLength env.isRoot →
      Reacts env call res
        (call.self.destinationWriteRequest env.isRoot socket (size - offset) offset) [down]
        (.ok (call.forgetEvent.forwardUp env socket size (offset + res.toNat), false))
  | downRead {socket : Socket} {up : Request} :
      call.self.state = .proxyingRequests → call.self.isFailed = false →
      call.self.destinationSocket = some socket → call.self.awaitingEventsCount = 2 →
      call.self.UpRequest env.isRoot socket up → 0 < res → res.toNat ≤ halfBufferSize →
      Reacts env call res (call.self.destinationReadRequest env.isRoot socket) [up]
        (.ok (call.forgetEvent.forwardDown env res.toNat 0, false))
  | downWritten {socket : Socket} {up : Request} {size offset : Nat} :
      call.self.state = .proxyingRequests → call.self.isFailed = false →
      call.self.destinationSocket = some socket → call.self.awaitingEventsCount = 2 →
      call.self.UpRequest env.isRoot socket up →
      call.self.clientWriteSize = some size → call.self.clientWriteOffset = some offset →
      0 ≤ res → res.toNat + offset = size → size ≤ halfBufferSize →
      Reacts env call res
        (call.self.clientWriteRequest env.isRoot (size - offset) offset) [up]
        (.ok (call.forgetEvent.readDestination env socket, false))
  | downGoesOn {socket : Socket} {up : Request} {size offset : Nat} :
      call.self.state = .proxyingRequests → call.self.isFailed = false →
      call.self.destinationSocket = some socket → call.self.awaitingEventsCount = 2 →
      call.self.UpRequest env.isRoot socket up →
      call.self.clientWriteSize = some size → call.self.clientWriteOffset = some offset →
      0 ≤ res → res.toNat + offset < size → size ≤ halfBufferSize →
      Reacts env call res
        (call.self.clientWriteRequest env.isRoot (size - offset) offset) [up]
        (.ok (call.forgetEvent.forwardDown env size (offset + res.toNat), false))

namespace Call

variable {env : Env} {call : Call} {res : Int}

@[simp] theorem forgetEvent_self (call : Call) :
    call.forgetEvent.self =
      { call.self with awaitingEventsCount := sizeDecrement call.self.awaitingEventsCount } := rfl

theorem react_of_error {type : EventType} (failing : res < 0)
    (awaited : call.self.awaitingEventsCount = 2) :
    call.react env type res = kept call.forgetEvent.failImmediately := by
  have remaining : call.forgetEvent.self.awaitingEventsCount ≠ 0 := by
    simp [awaited, sizeDecrement]
  simp only [react, if_pos failing, if_neg remaining]
  rfl

theorem react_last {type : EventType} (awaited : call.self.awaitingEventsCount = 1)
    (ending : res < 0 ∨ call.self.isFailed = true) :
    call.react env type res = .ok (call.forgetEvent, true) := by
  have exhausted : call.forgetEvent.self.awaitingEventsCount = 0 := by
    simp [awaited, sizeDecrement]
  by_cases failing : res < 0
  · simp only [react, if_pos failing, if_pos exhausted]
    rfl
  · have failed : call.forgetEvent.self.isFailed = true := by
      rcases ending with negative | failed
      · exact absurd negative failing
      · exact failed
    simp only [react, if_neg failing, if_pos failed, exhausted]
    rfl

theorem react_of_healthy {type : EventType} {result : Except Fault Call}
    (succeeded : 0 ≤ res) (healthy : call.self.isFailed = false)
    (dispatched : call.forgetEvent.dispatch env type res.toNat = result)
    (remaining : ∀ after, result = .ok after → after.self.isFailed = true →
      after.self.awaitingEventsCount ≠ 0) :
    call.react env type res = kept result := by
  have stillHealthy : call.forgetEvent.self.isFailed = false := healthy
  simp only [react, if_neg (Int.not_lt.mpr succeeded), stillHealthy, dispatched]
  cases result with
  | error fault => rfl
  | ok after =>
      have survives : ¬ (after.self.isFailed = true ∧ after.self.awaitingEventsCount = 0) :=
        fun both => remaining after rfl both.1 both.2
      simp [kept, Except.map, bind, Except.bind, pure, Except.pure, survives]

end Call

theorem closeFile_ok {files remaining : List Fd} {fd : Fd}
    (closed : closeFile files fd = .ok remaining) : remaining = files.erase fd := by
  unfold closeFile at closed
  split at closed
  · cases closed
    rfl
  · cases closed

theorem destroySocket_ok {files remaining : List Fd} {socket : Option Socket}
    (destroyed : destroySocket files socket = .ok remaining) : remaining.Sublist files := by
  cases socket with
  | none =>
      cases destroyed
      exact .refl _
  | some socket =>
      simp only [destroySocket, closeSocket] at destroyed
      split at destroyed
      · rw [closeFile_ok destroyed]
        exact List.erase_sublist
      · cases destroyed
        exact .refl _

theorem closeFd_ok {session : Session} {files remaining : List Fd}
    (closed : session.closeFd files = .ok remaining) :
    remaining.Sublist files ∧ (files.Nodup → session.fd ≠ -1 → session.fd ∉ remaining) := by
  unfold Session.closeFd at closed
  split at closed
  · rw [closeFile_ok closed]
    exact ⟨List.erase_sublist, fun distinct _ => distinct.not_mem_erase⟩
  · next unnamed =>
      cases closed
      exact ⟨.refl _, fun _ named => absurd named unnamed⟩

theorem closeFile_error {files : List Fd} {fd : Fd} {fault : Fault}
    (failed : closeFile files fd = .error fault) : fault = .closeFailed := by
  unfold closeFile at failed
  split at failed
  · cases failed
  · exact (Except.error.inj failed).symm

theorem destroySocket_error {files : List Fd} {socket : Option Socket} {fault : Fault}
    (failed : destroySocket files socket = .error fault) : fault = .closeFailed := by
  cases socket with
  | none => cases failed
  | some socket =>
      simp only [destroySocket, closeSocket] at failed
      split at failed
      · exact closeFile_error failed
      · cases failed

theorem Session.closeFd_error {session : Session} {files : List Fd} {fault : Fault}
    (failed : session.closeFd files = .error fault) : fault = .closeFailed := by
  unfold closeFd at failed
  split at failed
  · exact closeFile_error failed
  · cases failed

namespace Call

variable {env : Env} {call after : Call} {res : Int} {request : Request}
  {requests rest : List Request}

theorem resetDestinationSocket_ok (dropped : call.resetDestinationSocket = .ok after) :
    ∃ files, files.Sublist call.files ∧ after =
      { call with files }.update fun self => { self with destinationSocket := none } := by
  simp only [resetDestinationSocket, bind, Except.bind] at dropped
  cases destroyed : destroySocket call.files call.self.destinationSocket with
  | error fault => simp [destroyed] at dropped
  | ok files =>
      simp only [destroyed, pure, Except.pure, Except.ok.injEq] at dropped
      exact ⟨files, destroySocket_ok destroyed, dropped.symm⟩

theorem failImmediately_ok (failed : call.failImmediately = .ok after) :
    ∃ files, files.Sublist call.files ∧ (call.files.Nodup → call.self.fd ∉ files) ∧
      after = { call with files }.update fun self =>
        { self with isFailed := true, destinationSocket := none, fd := -1 } := by
  unfold failImmediately failDelayed at failed
  cases dropped : (call.update fun self =>
      { self with isFailed := true }).resetDestinationSocket with
  | error fault => simp [dropped, bind, Except.bind] at failed
  | ok delayed =>
      obtain ⟨files, remaining, rfl⟩ := resetDestinationSocket_ok dropped
      simp only [dropped, bind, Except.bind, update_self] at failed
      cases closed : closeFile files call.self.fd with
      | error fault =>
          simp only [update] at failed
          rw [closed] at failed
          cases failed
      | ok final =>
          simp only [update] at failed
          rw [closed] at failed
          cases failed
          rw [closeFile_ok closed]
          exact ⟨_, List.erase_sublist.trans remaining,
            fun distinct => (distinct.sublist remaining).not_mem_erase, rfl⟩

theorem failImmediately_error {call : Call} {fault : Fault}
    (failed : call.failImmediately = .error fault) : fault = .closeFailed := by
  unfold failImmediately failDelayed resetDestinationSocket at failed
  simp only [bind, Except.bind, update_self] at failed
  cases destroyed : destroySocket call.files call.self.destinationSocket with
  | error other =>
      simp only [update] at failed
      rw [destroyed] at failed
      cases failed
      exact destroySocket_error destroyed
  | ok remaining =>
      simp only [update] at failed
      rw [destroyed] at failed
      simp only [pure, Except.pure] at failed
      cases closed : closeFile remaining call.self.fd with
      | error other =>
          rw [closed] at failed
          cases failed
          exact closeFile_error closed
      | ok final =>
          rw [closed] at failed
          cases failed

theorem unreachable_ok (passed : env.unreachable call = .ok after) : after = call := by
  unfold Env.unreachable at passed
  split at passed
  · exact (Except.ok.inj passed).symm
  · cases passed

end Call

theorem Handled.awaitingEventsCount_le {env : Env} {call after : Call} {decision : Decision}
    (handled : Handled env call decision (.ok after)) :
    call.self.awaitingEventsCount ≤ after.self.awaitingEventsCount := by
  generalize ended : Except.ok after = result at handled
  cases handled with
  | wait steady | selectMethod steady | refuseMethods steady | refuse steady
  | unresolved steady | connect steady | socketException steady =>
      cases ended
      simp [Call.addClientReadRequest, Call.writeToClient, Call.addClientWriteRequest,
        Call.expectEvent, Call.submit, Call.refuseWith, Call.beginConnecting, Call.update,
        steady.awaitingEventsCount]
  | close steady =>
      obtain ⟨files, -, -, rfl⟩ := Call.failImmediately_ok ended.symm
      exact Nat.le_of_eq steady.awaitingEventsCount.symm
  | otherFamily steady =>
      cases Call.unreachable_ok ended.symm
      exact Nat.le_of_eq steady.awaitingEventsCount.symm
  | socketError => cases ended

namespace Call

variable {env : Env} {call : Call} {socket : Socket} {nbytes size offset : Nat}

theorem handleClientWrite_of_part (state : call.self.state ≠ .proxyingRequests)
    (part : nbytes < call.self.writeClientBuffer.length) :
    call.handleClientWrite env nbytes = .ok ((call.sent nbytes).writeToClient env) := by
  have unsent : (call.self.writeClientBuffer.drop nbytes).isEmpty = false := by
    simpa using part
  simp [handleClientWrite, state, Nat.le_of_lt part, sent, update, unsent]

theorem handleClientWrite_of_reply (state : call.self.state = .readingAuthMethods)
    (whole : nbytes = call.self.writeClientBuffer.length) :
    call.handleClientWrite env nbytes =
      ((call.sent nbytes).update fun self =>
        { self with state := .readingClientConnectionRequest }).readSomeFromClient env
          (handleClientRead env) Phase.request.threshold := by
  simp [handleClientWrite, state, whole, sent, update, Phase.threshold]

theorem handleClientWrite_of_grant (state : call.self.state = .connectingToDestination)
    (connected : call.self.destinationSocket = some socket)
    (whole : nbytes = call.self.writeClientBuffer.length) :
    call.handleClientWrite env nbytes = .ok ((call.sent nbytes).beginProxying env socket) := by
  by_cases early : call.self.readBuffer = []
  · simp [handleClientWrite, state, whole, sent, update, addDestinationReadRequest,
      destinationSocket, connected, orFault, bind, Except.bind, pure, Except.pure,
      readFromClient, Session.readCompleted, ReadCompletion.holds, early, beginProxying,
      readDestination, expectEvent, submit, Session.destinationReadRequest, Session.buffer1,
      Session.buffer1Index]
  · simp [handleClientWrite, state, whole, sent, update, addDestinationReadRequest,
      destinationSocket, connected, orFault, bind, Except.bind, pure, Except.pure,
      readFromClient, Session.readCompleted, ReadCompletion.holds, early, beginProxying,
      readDestination, expectEvent, submit, Session.destinationReadRequest, Session.buffer1,
      Session.buffer1Index, handleClientRead, maxNesting, handleClientReadNested,
      addDestinationWriteRequest, forwardUp, writeDestination]

theorem handleClientRead_of_proxying (state : call.self.state = .proxyingRequests)
    (connected : call.self.destinationSocket = some socket) :
    call.handleClientRead env nbytes = .ok (call.forwardUp env socket nbytes 0) := by
  simp [handleClientRead, maxNesting, handleClientReadNested, state, addDestinationWriteRequest,
    destinationSocket, update, connected, orFault, bind, Except.bind, pure, Except.pure,
    forwardUp, writeDestination]

theorem handleDestinationConnect_of_holds (state : call.self.state = .connectingToDestination)
    (holds : call.self.Holds socket.address) :
    call.handleDestinationConnect env = .ok ((call.update fun self =>
      { self with writeClientBuffer := grantMessage socket.address }).writeToClient env) := by
  cases target : socket.address with
  | inet address port =>
      rw [target] at holds
      obtain ⟨kind, held, asked⟩ := holds
      simp [handleDestinationConnect, state, kind, held, asked, orFault, bind, Except.bind, pure,
        Except.pure, grantMessage]
  | inet6 address port =>
      rw [target] at holds
      obtain ⟨kind, held, asked⟩ := holds
      simp [handleDestinationConnect, state, kind, held, asked, orFault, bind, Except.bind, pure,
        Except.pure, grantMessage]

theorem handleDestinationRead_eq :
    call.handleDestinationRead env nbytes = call.forwardDown env nbytes 0 := by
  simp [handleDestinationRead, forwardDown, update]

/-- A payload that fits in memory has all been taken exactly when the sizes of
the pieces add up to its own. -/
private theorem whole_iff (bounded : nbytes + offset ≤ size) (small : size ≤ bufferSize) :
    unsignedAdd nbytes offset = size ↔ nbytes + offset = size := by
  rw [unsignedAdd_of_lt (Nat.lt_of_le_of_lt (Nat.le_trans bounded small)
    bufferSize_lt_unsignedModulus)]

private theorem remaining_eq (bounded : nbytes + offset ≤ size) (small : size ≤ bufferSize) :
    unsignedAdd offset nbytes = offset + nbytes ∧
      unsignedSub size (offset + nbytes) = size - (offset + nbytes) := by
  have inRange : size < unsignedModulus := Nat.lt_of_le_of_lt small bufferSize_lt_unsignedModulus
  exact ⟨unsignedAdd_of_lt (by omega), unsignedSub_of_le (by omega) inRange⟩

theorem handleDestinationWrite_of_whole (sized : call.self.destinationWriteSize = some size)
    (placed : call.self.destinationWriteOffset = some offset)
    (whole : nbytes + offset = size) (small : size ≤ bufferSize) :
    call.handleDestinationWrite env nbytes = .ok (call.addClientReadRequest env) := by
  have added := (whole_iff (Nat.le_of_eq whole) small).mpr whole
  simp [handleDestinationWrite, sized, placed, orFault, bind, Except.bind, pure, Except.pure, added]

theorem handleDestinationWrite_of_part
    (connected : call.self.destinationSocket = some socket)
    (sized : call.self.destinationWriteSize = some size)
    (placed : call.self.destinationWriteOffset = some offset)
    (part : nbytes + offset < size) (small : size ≤ bufferSize) :
    call.handleDestinationWrite env nbytes =
      .ok (call.forwardUp env socket size (offset + nbytes)) := by
  have notWhole := mt (whole_iff (Nat.le_of_lt part) small).mp (Nat.ne_of_lt part)
  obtain ⟨advanced, remaining⟩ := remaining_eq (Nat.le_of_lt part) small
  simp [handleDestinationWrite, sized, placed, orFault, bind, Except.bind, pure, Except.pure,
    notWhole, advanced, remaining, addDestinationWriteRequest, destinationSocket, update, connected,
    forwardUp, writeDestination, Session.destinationWriteRequest, Session.buffer0,
    Session.buffer0Index, expectEvent, submit]

theorem handleClientWrite_of_whole (state : call.self.state = .proxyingRequests)
    (connected : call.self.destinationSocket = some socket)
    (sized : call.self.clientWriteSize = some size)
    (placed : call.self.clientWriteOffset = some offset)
    (whole : nbytes + offset = size) (small : size ≤ bufferSize) :
    call.handleClientWrite env nbytes = .ok (call.readDestination env socket) := by
  have added := (whole_iff (Nat.le_of_eq whole) small).mpr whole
  simp [handleClientWrite, state, sized, placed, orFault, bind, Except.bind, pure, Except.pure,
    added, addDestinationReadRequest, destinationSocket, connected, readDestination]

theorem handleClientWrite_of_rest (state : call.self.state = .proxyingRequests)
    (sized : call.self.clientWriteSize = some size)
    (placed : call.self.clientWriteOffset = some offset)
    (part : nbytes + offset < size) (small : size ≤ bufferSize) :
    call.handleClientWrite env nbytes =
      .ok (call.forwardDown env size (offset + nbytes)) := by
  have notWhole := mt (whole_iff (Nat.le_of_lt part) small).mp (Nat.ne_of_lt part)
  obtain ⟨advanced, remaining⟩ := remaining_eq (Nat.le_of_lt part) small
  simp [handleClientWrite, state, sized, placed, orFault, bind, Except.bind, pure, Except.pure,
    notWhole, advanced, remaining, update, forwardDown, addClientWriteRequest,
    Session.clientWriteRequest, Session.buffer1, Session.buffer1Index, expectEvent, submit]

end Call

namespace Call

variable {env : Env} {call : Call} {res : Int} {socket : Socket} {phase : Phase}
  {request up down : Request} {requests rest : List Request}

private theorem failing_keeps {after : Call} (awaited : call.self.awaitingEventsCount = 2)
    (failed : call.forgetEvent.failImmediately = .ok after) :
    after.self.awaitingEventsCount ≠ 0 := by
  obtain ⟨files, -, -, rfl⟩ := failImmediately_ok failed
  simp [awaited, sizeDecrement]

private theorem react_of_endOfFile {type : EventType}
    (reading : type = .clientRead ∨ type = .destinationRead)
    (healthy : call.self.isFailed = false) (awaited : call.self.awaitingEventsCount = 2) :
    call.react env type 0 = kept call.forgetEvent.failImmediately := by
  refine react_of_healthy (Int.le_refl 0) healthy ?_ fun after failed _ =>
    failing_keeps awaited failed
  rcases reading with rfl | rfl <;> rfl

theorem reacts_reading (inPhase : call.self.InPhase phase)
    (healthy : call.self.isFailed = false) (null : call.self.destinationSocket = none)
    (awaited : call.self.awaitingEventsCount = 2) :
    Reacts env call res (call.self.clientReadRequest env.isRoot) []
      (call.react env .clientRead res) := by
  have before : call.self.state.BeforeConnect := inPhase.state ▸ phase.state_beforeConnect
  rcases lt_trichotomy res 0 with failing | rfl | positive
  · rw [react_of_error failing awaited]
    exact .lost before null awaited (.inl failing)
  · rw [react_of_endOfFile (.inl rfl) healthy awaited]
    exact .lost before null awaited (.inr ⟨rfl, healthy, rfl⟩)
  · have later : call.forgetEvent.self.InPhase phase :=
      ⟨inPhase.state, inPhase.awaits, inPhase.knows.congr rfl rfl rfl⟩
    have handled : Handled env (call.forgetEvent.receive res.toNat) _
        (call.forgetEvent.handleClientRead env res.toNat) :=
      handleClientRead_handled res.toNat null later
    have dispatched : call.forgetEvent.dispatch env .clientRead res.toNat =
        call.forgetEvent.handleClientRead env res.toNat := by
      have some : res.toNat ≠ 0 := by omega
      simp only [dispatch, if_pos some]
    rw [react_of_healthy (Int.le_of_lt positive) healthy dispatched fun after ended _ => ?_]
    · exact .decoded inPhase healthy null awaited positive handled
    · have counted : 1 ≤ after.self.awaitingEventsCount := by
        have raised := Handled.awaitingEventsCount_le (ended ▸ handled)
        simpa [receive, awaited, sizeDecrement] using raised
      omega

theorem reacts_replying (state : call.self.state = .readingAuthMethods)
    (healthy : call.self.isFailed = false) (null : call.self.destinationSocket = none)
    (awaited : call.self.awaitingEventsCount = 2)
    (bounded : res ≤ call.self.writeClientBuffer.length) :
    Reacts env call res (call.self.pendingWrite env.isRoot) []
      (call.react env .clientWrite res) := by
  have before : call.self.state.BeforeConnect := by
    rw [state]
    decide
  by_cases failing : res < 0
  · rw [react_of_error failing awaited]
    exact .lost before null awaited (.inl failing)
  have succeeded : 0 ≤ res := Int.not_lt.mp failing
  have handshaking : call.forgetEvent.self.state ≠ .proxyingRequests := by simp [state]
  by_cases part : res.toNat < call.self.writeClientBuffer.length
  · have dispatched : call.forgetEvent.dispatch env .clientWrite res.toNat = _ :=
      handleClientWrite_of_part handshaking part
    rw [react_of_healthy succeeded healthy dispatched fun after ended _ => ?_]
    · exact .methodGoesOn state healthy null awaited succeeded part
    · cases ended
      simp [writeToClient, addClientWriteRequest, expectEvent, submit, update, sent, forgetEvent]
  · have whole : res.toNat = call.self.writeClientBuffer.length := by omega
    let resumed : Call := (call.forgetEvent.sent res.toNat).update fun self =>
      { self with state := .readingClientConnectionRequest }
    have handled : Handled env resumed (decode .request call.self.readBuffer)
        (resumed.readSomeFromClient env (handleClientRead env) Phase.request.threshold) :=
      readSomeFromClient_handled resumed .request rfl trivial fun self steady inPhase _ _ =>
        handleClientReadNested_handled (steady.destinationSocket.trans null) inPhase
    have dispatched : call.forgetEvent.dispatch env .clientWrite res.toNat = _ :=
      handleClientWrite_of_reply state whole
    rw [react_of_healthy succeeded healthy dispatched fun after ended _ => ?_]
    · exact .methodSent state healthy null awaited succeeded whole handled
    · have counted : 1 ≤ after.self.awaitingEventsCount := by
        have raised := Handled.awaitingEventsCount_le (ended ▸ handled)
        simpa [resumed, sent, awaited, sizeDecrement] using raised
      omega

theorem reacts_connecting (state : call.self.state = .connectingToDestination)
    (holds : call.self.Holds socket.address) (healthy : call.self.isFailed = false)
    (connected : call.self.destinationSocket = some socket)
    (awaited : call.self.awaitingEventsCount = 1) (bounded : res ≤ 0) :
    Reacts env call res (Session.destinationConnectRequest socket) []
      (call.react env .destinationConnect res) := by
  by_cases failing : res < 0
  · rw [react_last awaited (.inl failing)]
    refine .deleted ?_ awaited (.inl failing)
    rw [state]
    decide
  · have zero : res = 0 := by omega
    have dispatched : call.forgetEvent.dispatch env .destinationConnect res.toNat = _ :=
      handleDestinationConnect_of_holds state holds
    rw [react_of_healthy (Int.not_lt.mp failing) healthy dispatched fun after ended _ => ?_]
    · exact .connected state holds healthy connected awaited zero
    · cases ended
      simp [writeToClient, addClientWriteRequest, expectEvent, submit, update, forgetEvent]

theorem reacts_granting (state : call.self.state = .connectingToDestination)
    (healthy : call.self.isFailed = false)
    (connected : call.self.destinationSocket = some socket)
    (awaited : call.self.awaitingEventsCount = 1)
    (bounded : res ≤ call.self.writeClientBuffer.length) :
    Reacts env call res (call.self.pendingWrite env.isRoot) []
      (call.react env .clientWrite res) := by
  by_cases failing : res < 0
  · rw [react_last awaited (.inl failing)]
    refine .deleted ?_ awaited (.inl failing)
    rw [state]
    decide
  have succeeded : 0 ≤ res := Int.not_lt.mp failing
  have connecting : call.forgetEvent.self.state ≠ .proxyingRequests := by simp [state]
  by_cases part : res.toNat < call.self.writeClientBuffer.length
  · have dispatched : call.forgetEvent.dispatch env .clientWrite res.toNat = _ :=
      handleClientWrite_of_part connecting part
    rw [react_of_healthy succeeded healthy dispatched fun after ended _ => ?_]
    · exact .grantGoesOn state healthy connected awaited succeeded part
    · cases ended
      simp [writeToClient, addClientWriteRequest, expectEvent, submit, update, sent, forgetEvent]
  · have whole : res.toNat = call.self.writeClientBuffer.length := by omega
    have dispatched : call.forgetEvent.dispatch env .clientWrite res.toNat = _ :=
      handleClientWrite_of_grant state connected whole
    rw [react_of_healthy succeeded healthy dispatched fun after ended failed => ?_]
    · exact .granted state healthy connected awaited succeeded whole
    · cases ended
      simp only [beginProxying] at failed
      split at failed <;>
        simp [addClientReadRequest, forwardUp, writeDestination, readDestination, expectEvent,
          submit, update, sent, forgetEvent, healthy] at failed

theorem reacts_refusing (state : call.self.state.BeforeConnect)
    (failed : call.self.isFailed = true) (null : call.self.destinationSocket = none)
    (awaited : call.self.awaitingEventsCount = 2) :
    Reacts env call res (call.self.pendingWrite env.isRoot) []
      (call.react env .clientWrite res) := by
  by_cases failing : res < 0
  · rw [react_of_error failing awaited]
    exact .lost state null awaited (.inl failing)
  · have reacted : call.react env .clientWrite res = .ok (call.forgetEvent, false) := by
      have remaining : call.forgetEvent.self.awaitingEventsCount ≠ 0 := by
        simp [awaited, sizeDecrement]
      have stillFailed : call.forgetEvent.self.isFailed = true := failed
      simp only [react, if_neg failing, if_pos stillFailed, remaining]
      rfl
    rw [reacted]
    exact .refusalSent state failed null awaited (Int.not_lt.mp failing)

private theorem reacts_hungUp {other : Request} (state : call.self.state = .proxyingRequests)
    (healthy : call.self.isFailed = false)
    (connected : call.self.destinationSocket = some socket)
    (awaited : call.self.awaitingEventsCount = 2)
    (confined : other.Confined call.self.block)
    (ending : res < 0 ∨ (res = 0 ∧
      (request.type = .clientRead ∨ request.type = .destinationRead))) :
    Reacts env call res request [other] (call.react env request.type res) := by
  have reacted : call.react env request.type res = kept call.forgetEvent.failImmediately := by
    rcases ending with failing | ⟨rfl, reading⟩
    · exact react_of_error failing awaited
    · exact react_of_endOfFile reading healthy awaited
  rw [reacted]
  exact .hungUp state healthy connected awaited confined ending

theorem reacts_up (state : call.self.state = .proxyingRequests)
    (upward : call.self.UpRequest env.isRoot socket request)
    (downward : call.self.DownRequest env.isRoot socket down)
    (healthy : call.self.isFailed = false)
    (connected : call.self.destinationSocket = some socket)
    (awaited : call.self.awaitingEventsCount = 2)
    (bounded : res ≤ request.operation.region.length) :
    Reacts env call res request [down] (call.react env request.type res) := by
  by_cases failing : res < 0
  · exact reacts_hungUp state healthy connected awaited downward.confined (.inl failing)
  have succeeded : 0 ≤ res := Int.not_lt.mp failing
  cases upward with
  | read =>
      by_cases ended : res = 0
      · exact reacts_hungUp state healthy connected awaited downward.confined
          (.inr ⟨ended, .inl rfl⟩)
      · have dispatched : call.forgetEvent.dispatch env .clientRead res.toNat =
            .ok (call.forgetEvent.forwardUp env socket res.toNat 0) := by
          have some : res.toNat ≠ 0 := by omega
          simp only [dispatch, if_pos some]
          exact handleClientRead_of_proxying state connected
        have fits : res.toNat ≤ Session.clientReadLength env.isRoot := by
          simp only [Session.clientReadRequest, Operation.region] at bounded
          omega
        have reacted : call.react env .clientRead res = _ :=
          react_of_healthy succeeded healthy dispatched fun after returned failed => by
            cases returned
            simp [forwardUp, writeDestination, expectEvent, submit, healthy] at failed
        change Reacts env call res _ _ (call.react env .clientRead res)
        rw [reacted]
        exact .upRead state healthy connected awaited downward (by omega) fits
  | @write size offset sized placed ordered fits =>
      have small : size ≤ bufferSize := Nat.le_trans fits (Session.clientReadLength_le _)
      have taken : res.toNat + offset ≤ size := by
        simp only [Session.destinationWriteRequest, Operation.region] at bounded
        omega
      rcases Nat.eq_or_lt_of_le taken with whole | part
      · have dispatched : call.forgetEvent.dispatch env .destinationWrite res.toNat = _ :=
          handleDestinationWrite_of_whole sized placed whole small
        have reacted : call.react env .destinationWrite res = _ :=
          react_of_healthy succeeded healthy dispatched fun after returned failed => by
            cases returned
            simp [addClientReadRequest, expectEvent, submit, update, healthy] at failed
        change Reacts env call res _ _ (call.react env .destinationWrite res)
        rw [reacted]
        exact .upWritten state healthy connected awaited downward sized placed succeeded whole fits
      · have dispatched : call.forgetEvent.dispatch env .destinationWrite res.toNat = _ :=
          handleDestinationWrite_of_part connected sized placed part small
        have reacted : call.react env .destinationWrite res = _ :=
          react_of_healthy succeeded healthy dispatched fun after returned failed => by
            cases returned
            simp [forwardUp, writeDestination, expectEvent, submit, healthy] at failed
        change Reacts env call res _ _ (call.react env .destinationWrite res)
        rw [reacted]
        exact .upGoesOn state healthy connected awaited downward sized placed succeeded part fits

theorem reacts_down (state : call.self.state = .proxyingRequests)
    (upward : call.self.UpRequest env.isRoot socket up)
    (downward : call.self.DownRequest env.isRoot socket request)
    (healthy : call.self.isFailed = false)
    (connected : call.self.destinationSocket = some socket)
    (awaited : call.self.awaitingEventsCount = 2)
    (bounded : res ≤ request.operation.region.length) :
    Reacts env call res request [up] (call.react env request.type res) := by
  by_cases failing : res < 0
  · exact reacts_hungUp state healthy connected awaited upward.confined (.inl failing)
  have succeeded : 0 ≤ res := Int.not_lt.mp failing
  cases downward with
  | read =>
      by_cases ended : res = 0
      · exact reacts_hungUp state healthy connected awaited upward.confined (.inr ⟨ended, .inr rfl⟩)
      · have dispatched : call.forgetEvent.dispatch env .destinationRead res.toNat =
            .ok (call.forgetEvent.forwardDown env res.toNat 0) := by
          have some : res.toNat ≠ 0 := by omega
          simp only [dispatch, if_pos some, handleDestinationRead_eq]
        have fits : res.toNat ≤ halfBufferSize := by
          simp only [Session.destinationReadRequest, Operation.region] at bounded
          omega
        have reacted : call.react env .destinationRead res = _ :=
          react_of_healthy succeeded healthy dispatched fun after returned failed => by
            cases returned
            simp [forwardDown, addClientWriteRequest, expectEvent, submit, update,
              healthy] at failed
        change Reacts env call res _ _ (call.react env .destinationRead res)
        rw [reacted]
        exact .downRead state healthy connected awaited upward (by omega) fits
  | @write size offset sized placed ordered fits =>
      have small : size ≤ bufferSize := Nat.le_trans fits halfBufferSize_le_bufferSize
      have taken : res.toNat + offset ≤ size := by
        simp only [Session.clientWriteRequest, Operation.region] at bounded
        omega
      rcases Nat.eq_or_lt_of_le taken with whole | part
      · have dispatched : call.forgetEvent.dispatch env .clientWrite res.toNat = _ :=
          handleClientWrite_of_whole state connected sized placed whole small
        have reacted : call.react env .clientWrite res = _ :=
          react_of_healthy succeeded healthy dispatched fun after returned failed => by
            cases returned
            simp [readDestination, expectEvent, submit, update, healthy] at failed
        change Reacts env call res _ _ (call.react env .clientWrite res)
        rw [reacted]
        exact .downWritten state healthy connected awaited upward sized placed succeeded whole fits
      · have dispatched : call.forgetEvent.dispatch env .clientWrite res.toNat = _ :=
          handleClientWrite_of_rest state sized placed part small
        have reacted : call.react env .clientWrite res = _ :=
          react_of_healthy succeeded healthy dispatched fun after returned failed => by
            cases returned
            simp [forwardDown, addClientWriteRequest, expectEvent, submit, update,
              healthy] at failed
        change Reacts env call res _ _ (call.react env .clientWrite res)
        rw [reacted]
        exact .downGoesOn state healthy connected awaited upward sized placed succeeded part fits

theorem perm_pair {Value : Type} {first second taken : Value} {others : List Value}
    (same : [first, second].Perm (taken :: others)) :
    taken = first ∧ others = [second] ∨ taken = second ∧ others = [first] := by
  rcases List.mem_pair.mp (same.mem_iff.mpr List.mem_cons_self) with rfl | rfl
  · exact .inl ⟨rfl, (List.singleton_perm.mp same.cons_inv).symm⟩
  · have swapped := (List.Perm.swap first taken []).trans same
    exact .inr ⟨rfl, (List.singleton_perm.mp swapped.cons_inv).symm⟩

private theorem alone {only : Request} (completed : [only].Perm (request :: rest)) :
    request = only ∧ rest = [] := by
  have same : [only] = request :: rest := List.singleton_perm.mp completed
  cases same
  exact ⟨rfl, rfl⟩

/-- The loop treats the completion of any request a consistent session has in
flight as `Reacts` tells, whatever the result. -/
theorem reacts (consistent : call.self.Consistent env.isRoot requests)
    (completed : requests.Perm (request :: rest))
    (bounded : res ≤ request.operation.region.length) :
    Reacts env call res request rest (call.react env request.type res) := by
  generalize owner : call.self = self at consistent
  cases consistent with
  | reading inPhase short healthy null awaited =>
      obtain ⟨rfl, rfl⟩ := alone completed
      subst owner
      exact reacts_reading inPhase healthy null awaited
  | replying state unsent healthy null awaited =>
      obtain ⟨rfl, rfl⟩ := alone completed
      subst owner
      exact reacts_replying state healthy null awaited
        (bounded.trans (Int.ofNat_le.mpr (Nat.min_le_right _ _)))
  | stalled | leaked => exact absurd (List.nil_perm.mp completed) (List.cons_ne_nil _ _)
  | connecting state holds healthy connected awaited =>
      obtain ⟨rfl, rfl⟩ := alone completed
      subst owner
      exact reacts_connecting state holds healthy connected awaited bounded
  | granting state unsent healthy connected awaited =>
      obtain ⟨rfl, rfl⟩ := alone completed
      subst owner
      exact reacts_granting state healthy connected awaited
        (bounded.trans (Int.ofNat_le.mpr (Nat.min_le_right _ _)))
  | refusing state unsent failed null awaited =>
      obtain ⟨rfl, rfl⟩ := alone completed
      subst owner
      exact reacts_refusing state failed null awaited
  | proxying state upward downward both healthy connected awaited =>
      subst owner
      rcases perm_pair (both.symm.trans completed) with ⟨rfl, rfl⟩ | ⟨rfl, rfl⟩
      · exact reacts_up state upward downward healthy connected awaited bounded
      · exact reacts_down state upward downward healthy connected awaited bounded
  | draining state closed confined failed null awaited =>
      obtain ⟨rfl, rfl⟩ := alone completed
      subst owner
      rw [react_last awaited (.inr failed)]
      refine .deleted ?_ awaited (.inr failed)
      rw [state]
      decide

end Call

end ModernCppHw.Socks5
