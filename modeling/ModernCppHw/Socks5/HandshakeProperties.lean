import ModernCppHw.Socks5.Handshake

/-! The handshake methods of a session do what decoding the bytes it holds
tells. The methods call one another through several states within one
completion; the decision is the same as if the bytes were decoded at once. -/

set_option autoImplicit false

namespace ModernCppHw.Socks5

/-- The fields no handshake step changes before it acts on its decision. -/
structure Session.Steady (before after : Session) : Prop where
  fd : after.fd = before.fd
  bufferIndex : after.bufferIndex = before.bufferIndex
  awaitingEventsCount : after.awaitingEventsCount = before.awaitingEventsCount
  isFailed : after.isFailed = before.isFailed
  destinationSocket : after.destinationSocket = before.destinationSocket
  writeClientBuffer : after.writeClientBuffer = before.writeClientBuffer

theorem Session.Steady.refl (self : Session) : self.Steady self :=
  ⟨rfl, rfl, rfl, rfl, rfl, rfl⟩

theorem Session.Steady.trans {first second third : Session} (left : first.Steady second)
    (right : second.Steady third) : first.Steady third where
  fd := right.fd.trans left.fd
  bufferIndex := right.bufferIndex.trans left.bufferIndex
  awaitingEventsCount := right.awaitingEventsCount.trans left.awaitingEventsCount
  isFailed := right.isFailed.trans left.isFailed
  destinationSocket := right.destinationSocket.trans left.destinationSocket
  writeClientBuffer := right.writeClientBuffer.trans left.writeClientBuffer

/-- What a session has recorded of the phases before this one. -/
def Session.Knows (self : Session) : Phase → Prop
  | .greeting | .request => True
  | .methods count => self.authMethodsCount = some count
  | .domainNameLength => self.addressType = some .domainName
  | .address (.domainName length) =>
      self.addressType = some .domainName ∧ self.domainNameLength = some length
  | .address kind => self.addressType = some kind.type

theorem Session.Knows.congr {self other : Session} {phase : Phase} (knows : self.Knows phase)
    (count : other.authMethodsCount = self.authMethodsCount)
    (type : other.addressType = self.addressType)
    (length : other.domainNameLength = self.domainNameLength) : other.Knows phase := by
  cases phase with
  | greeting | request => trivial
  | methods => exact count.trans knows
  | domainNameLength => exact type.trans knows
  | address kind =>
      cases kind with
      | ipv4 | ipv6 => exact type.trans knows
      | domainName => exact ⟨type.trans knows.1, length.trans knows.2⟩

structure Session.InPhase (session : Session) (phase : Phase) : Prop where
  state : session.state = phase.state
  awaits : session.isReadCompleted = .atLeast phase.threshold
  knows : session.Knows phase

theorem Session.InPhase.readCompleted_iff {self : Session} {phase : Phase}
    (inPhase : self.InPhase phase) :
    self.readCompleted = true ↔ phase.threshold ≤ self.readBuffer.length := by
  simp [readCompleted, inPhase.awaits, ReadCompletion.holds]

/-- The session's fields agree with the address it connects to. -/
def Session.Holds (self : Session) : SockAddr → Prop
  | .inet address port =>
      self.addressType = some .ipv4 ∧ self.ipv4Address = some address ∧ self.port = some port
  | .inet6 address port =>
      self.addressType = some .ipv6 ∧ self.ipv6Address = some address ∧ self.port = some port

/-- The socket address an entry of the host table gives, if it is of a family
the server knows. -/
def Hostent.sockAddr? (port : InPort) : Hostent → Option SockAddr
  | .inet address => some (.inet address port)
  | .inet6 address => some (.inet6 address port)
  | .failure | .otherFamily => none

/-- The name reaches the resolver as a C string. -/
def Env.resolve (env : Env) (destination : Destination) : Hostent :=
  destination.resolve fun name => env.gethostbyname (cString name)

namespace Call

/-- The session is marked failed and its last message is being written. -/
def refuseWith (env : Env) (message : List Byte) (call : Call) : Call :=
  (call.update fun self =>
    { self with isFailed := true, writeClientBuffer := message }).writeToClient env

/-- The destination socket is open and its connect request submitted. -/
def beginConnecting (socket : Socket) (call : Call) : Call :=
  ({ call with files := socket.fd :: call.files }.update fun self =>
    { self with destinationSocket := some socket
                state := .connectingToDestination }).submit
      (Session.destinationConnectRequest socket)

end Call

/-- How a call ends that acts on a decision. The session it acts on may differ
from the one the call began with in what the handshake records. -/
inductive Handled (env : Env) (call : Call) : Decision → Except Fault Call → Prop where
  | wait {phase : Phase} {self : Session} :
      call.self.Steady self → self.InPhase phase →
      Handled env call (.wait phase self.readBuffer)
        (.ok ({ call with self }.addClientReadRequest env))
  | close {self : Session} :
      call.self.Steady self → self.state = .readingClientGreeting →
      Handled env call .close { call with self }.failImmediately
  | selectMethod {self : Session} :
      call.self.Steady self → self.state = .readingAuthMethods →
      Handled env call (.selectMethod self.readBuffer)
        (.ok (({ call with self }.update fun self =>
          { self with writeClientBuffer := [0x05, 0x00] }).writeToClient env))
  | refuseMethods {self : Session} :
      call.self.Steady self → self.state = .readingAuthMethods →
      Handled env call (.refuseMethods self.readBuffer)
        (.ok ({ call with self }.refuseWith env [0x05, 0x00]))
  | refuse {code : Byte} {self : Session} :
      call.self.Steady self → self.state = .readingClientConnectionRequest →
      Handled env call (.refuse code)
        (.ok ({ call with self }.refuseWith env (failMessage code)))
  | unresolved {destination : Destination} {self : Session} :
      call.self.Steady self → self.state = .readingAddress →
      env.resolve destination = .failure →
      Handled env call (.connect destination self.readBuffer)
        (.ok ({ call with self }.refuseWith env (failMessage 0x04)))
  | otherFamily {destination : Destination} {self : Session} :
      call.self.Steady self → self.state = .readingAddress →
      env.resolve destination = .otherFamily →
      Handled env call (.connect destination self.readBuffer)
        (env.unreachable { call with self })
  | connect {destination : Destination} {self : Session} {address : SockAddr} {fd : Fd} :
      call.self.Steady self → self.Holds address →
      (env.resolve destination).sockAddr? destination.port = some address →
      env.socket = .created fd →
      Handled env call (.connect destination self.readBuffer)
        (.ok ({ call with self }.beginConnecting ⟨fd, address⟩))
  | socketError {destination : Destination} {rest : List Byte} {errno : Int}
      {address : SockAddr} :
      (env.resolve destination).sockAddr? destination.port = some address →
      env.socket = .error errno →
      Handled env call (.connect destination rest) (.error .nullDestinationSocket)
  | socketException {destination : Destination} {self : Session} {address : SockAddr} :
      call.self.Steady self → self.state = .readingAddress →
      (env.resolve destination).sockAddr? destination.port = some address →
      env.socket = .otherException →
      Handled env call (.connect destination self.readBuffer)
        (.ok ({ call with self }.refuseWith env (failMessage 0x01)))

namespace Call

@[simp] theorem update_self (call : Call) (change : Session → Session) :
    (call.update change).self = change call.self := rfl

theorem resetDestinationSocket_of_null {call : Call}
    (null : call.self.destinationSocket = none) : call.resetDestinationSocket = .ok call := by
  have same : (call.update fun self => { self with destinationSocket := none }) = call := by
    simp [update, ← null]
  simp only [resetDestinationSocket, null, destroySocket]
  exact congrArg Except.ok same

theorem failDelayed_of_null {call : Call} (null : call.self.destinationSocket = none) :
    call.failDelayed = .ok (call.update fun self => { self with isFailed := true }) :=
  resetDestinationSocket_of_null null

theorem sendFailMessage_of_null {env : Env} {call : Call} {code : Byte}
    (null : call.self.destinationSocket = none) :
    call.sendFailMessage env code = .ok (call.refuseWith env (failMessage code)) := by
  simp only [sendFailMessage, failDelayed_of_null null]
  rfl

/-- The reply code `translate_errno` chooses. -/
def errnoCode (errno : Int) : Byte :=
  if errno = eNetUnreach then 0x03
  else if errno = eHostUnreach then 0x04
  else if errno = eConnRefused then 0x05
  else 0x01

theorem translateErrno_of_null {env : Env} {call : Call} {errno : Int}
    (null : call.self.destinationSocket = none) :
    call.translateErrno env errno = .ok (call.refuseWith env (failMessage (errnoCode errno))) := by
  simp only [translateErrno, errnoCode, sendFailMessage_of_null null]
  split
  · rfl
  · split
    · rfl
    · split <;> rfl

@[simp] theorem refuseWith_self (env : Env) (message : List Byte) (call : Call) :
    (call.refuseWith env message).self =
      { call.self with
        isFailed := true
        writeClientBuffer := message
        awaitingEventsCount := call.self.awaitingEventsCount + 1 } := rfl

theorem consumeBytesFromReadBuffer_of_le {call : Call} {nread : Nat}
    (enough : nread ≤ call.self.readBuffer.length) :
    call.consumeBytesFromReadBuffer nread =
      .ok (call.update fun self => { self with readBuffer := self.readBuffer.drop nread }) := by
  simp only [consumeBytesFromReadBuffer, if_pos enough]

end Call

theorem bytesAt_eq_slice {bytes : List Byte} {offset length : Nat}
    (within : offset + length ≤ bytes.length) :
    bytesAt bytes offset length = .ok (slice bytes offset length within) := by
  simp only [bytesAt, dif_pos within]
  rfl

theorem Handled.of_steady {env : Env} {call : Call} {self : Session} {decision : Decision}
    {result : Except Fault Call} (steady : call.self.Steady self)
    (handled : Handled env { call with self } decision result) :
    Handled env call decision result := by
  cases handled with
  | wait next inPhase => exact .wait (steady.trans next) inPhase
  | close next state => exact .close (steady.trans next) state
  | selectMethod next state => exact .selectMethod (steady.trans next) state
  | refuseMethods next state => exact .refuseMethods (steady.trans next) state
  | refuse next state => exact .refuse (steady.trans next) state
  | unresolved next state failure => exact .unresolved (steady.trans next) state failure
  | otherFamily next state other => exact .otherFamily (steady.trans next) state other
  | connect next holds resolved created =>
      exact .connect (steady.trans next) holds resolved created
  | socketError resolved failed => exact .socketError resolved failed
  | socketException next state resolved failed =>
      exact .socketException (steady.trans next) state resolved failed

namespace Call

variable {env : Env} {call : Call}

theorem connectDestination_handled {destination : Destination} {address : SockAddr}
    (null : call.self.destinationSocket = none)
    (state : call.self.state = .readingAddress) (holds : call.self.Holds address)
    (resolved : (env.resolve destination).sockAddr? destination.port = some address) :
    Handled env call (.connect destination call.self.readBuffer)
      (call.connectDestination env address) := by
  cases answer : env.socket with
  | created fd =>
      have opened : call.connectDestination env address =
          .ok (call.beginConnecting ⟨fd, address⟩) := by
        have dropped : ({ call with files := fd :: call.files } : Call).resetDestinationSocket =
            .ok { call with files := fd :: call.files } := resetDestinationSocket_of_null null
        simp only [connectDestination, answer, assignDestinationSocket, dropped]
        rfl
      rw [opened]
      exact .connect (.refl _) holds resolved answer
  | error errno =>
      have dropped : call.connectDestination env address = .error .nullDestinationSocket := by
        simp [connectDestination, answer, translateErrno_of_null null, bind, Except.bind,
          addDestinationConnectRequest, Call.destinationSocket, null, orFault]
      rw [dropped]
      exact .socketError resolved answer
  | otherException =>
      have refused : call.connectDestination env address =
          .ok (call.refuseWith env (failMessage 0x01)) := by
        simp only [connectDestination, answer, sendFailMessage_of_null null]
      rw [refused]
      exact .socketException (.refl _) state resolved answer

private theorem readAddress_ipv4 (null : call.self.destinationSocket = none)
    (inPhase : call.self.InPhase (.address .ipv4)) (enough : 6 ≤ call.self.readBuffer.length) :
    Handled env call (decodeAddress .ipv4 call.self.readBuffer) (call.readAddress env) := by
  have known : call.self.addressType = some .ipv4 := inPhase.knows
  have first : 0 + 4 ≤ call.self.readBuffer.length := by omega
  have second : 4 + 2 ≤ call.self.readBuffer.length := enough
  let self : Session :=
    { call.self with
      ipv4Address := some (slice call.self.readBuffer 0 4 first)
      port := some (slice call.self.readBuffer 4 2 second)
      readBuffer := call.self.readBuffer.drop 6 }
  have reached : call.readAddress env = { call with self }.connectDestination env
      (.inet (slice call.self.readBuffer 0 4 first) (slice call.self.readBuffer 4 2 second)) := by
    simp only [readAddress, known, orFault, bytesAt_eq_slice first, bytesAt_eq_slice second, bind,
      Except.bind]
    rw [consumeBytesFromReadBuffer_of_le (by simpa using enough)]
    rfl
  have steady : call.self.Steady self := ⟨rfl, rfl, rfl, rfl, rfl, rfl⟩
  have holds : self.Holds (.inet (slice call.self.readBuffer 0 4 first)
      (slice call.self.readBuffer 4 2 second)) := ⟨known, rfl, rfl⟩
  rw [reached, decodeAddress_of_enough .ipv4 enough]
  exact .of_steady steady (connectDestination_handled null inPhase.state holds rfl)

private theorem readAddress_ipv6 (null : call.self.destinationSocket = none)
    (inPhase : call.self.InPhase (.address .ipv6)) (enough : 18 ≤ call.self.readBuffer.length) :
    Handled env call (decodeAddress .ipv6 call.self.readBuffer) (call.readAddress env) := by
  have known : call.self.addressType = some .ipv6 := inPhase.knows
  have first : 0 + 16 ≤ call.self.readBuffer.length := by omega
  have second : 16 + 2 ≤ call.self.readBuffer.length := enough
  let self : Session :=
    { call.self with
      ipv6Address := some (slice call.self.readBuffer 0 16 first)
      port := some (slice call.self.readBuffer 16 2 second)
      readBuffer := call.self.readBuffer.drop 18 }
  have reached : call.readAddress env = { call with self }.connectDestination env
      (.inet6 (slice call.self.readBuffer 0 16 first)
        (slice call.self.readBuffer 16 2 second)) := by
    simp only [readAddress, known, orFault, bytesAt_eq_slice first, bytesAt_eq_slice second, bind,
      Except.bind]
    rw [consumeBytesFromReadBuffer_of_le (by simpa using enough)]
    rfl
  have steady : call.self.Steady self := ⟨rfl, rfl, rfl, rfl, rfl, rfl⟩
  have holds : self.Holds (.inet6 (slice call.self.readBuffer 0 16 first)
      (slice call.self.readBuffer 16 2 second)) := ⟨known, rfl, rfl⟩
  rw [reached, decodeAddress_of_enough .ipv6 enough]
  exact .of_steady steady (connectDestination_handled null inPhase.state holds rfl)

private theorem readAddress_domainName {length : Nat}
    (null : call.self.destinationSocket = none)
    (inPhase : call.self.InPhase (.address (.domainName length)))
    (enough : length + 2 ≤ call.self.readBuffer.length) :
    Handled env call (decodeAddress (.domainName length) call.self.readBuffer)
      (call.readAddress env) := by
  obtain ⟨known, counted⟩ := inPhase.knows
  have first : 0 + length ≤ call.self.readBuffer.length := by omega
  let name := slice call.self.readBuffer 0 length first
  let port := slice call.self.readBuffer length 2 enough
  let self : Session :=
    { call.self with
      domainName := name.toList
      port := some port
      readBuffer := call.self.readBuffer.drop (length + 2) }
  have steady : call.self.Steady self := ⟨rfl, rfl, rfl, rfl, rfl, rfl⟩
  have consumed : (call.update fun self =>
        { self with domainName := name.toList
                    port := some port }).consumeBytesFromReadBuffer (length + 2) =
      .ok { call with self } := by
    rw [consumeBytesFromReadBuffer_of_le (by simpa using enough)]
    rfl
  have resolved : env.resolve ((AddressKind.domainName length).read call.self.readBuffer enough) =
      env.gethostbyname (cString self.domainName) := rfl
  rw [decodeAddress_of_enough (.domainName length) enough]
  unfold readAddress
  simp only [known, counted, orFault, bytesAt_eq_slice first, bytesAt_eq_slice enough, bind,
    Except.bind]
  rw [consumed]
  dsimp only
  cases found : env.gethostbyname (cString self.domainName) with
  | failure =>
      have refused : ({ call with self } : Call).sendFailMessage env 0x04 =
          .ok (({ call with self } : Call).refuseWith env (failMessage 0x04)) :=
        sendFailMessage_of_null null
      have handled := Handled.unresolved steady inPhase.state (resolved.trans found)
      rw [← refused] at handled
      exact handled
  | inet address =>
      let resolvedSelf : Session :=
        { self with addressType := some .ipv4, ipv4Address := some address }
      have resumed : self.Steady resolvedSelf := ⟨rfl, rfl, rfl, rfl, rfl, rfl⟩
      have target : (env.resolve ((AddressKind.domainName length).read call.self.readBuffer
          enough)).sockAddr? port = some (.inet address port) := by
        rw [resolved, found]
        rfl
      have holds : resolvedSelf.Holds (.inet address port) := ⟨rfl, rfl, rfl⟩
      have handled : Handled env { call with self := resolvedSelf } _ _ :=
        connectDestination_handled null inPhase.state holds target
      exact handled.of_steady (steady.trans resumed)
  | inet6 address =>
      let resolvedSelf : Session :=
        { self with addressType := some .ipv6, ipv6Address := some address }
      have resumed : self.Steady resolvedSelf := ⟨rfl, rfl, rfl, rfl, rfl, rfl⟩
      have target : (env.resolve ((AddressKind.domainName length).read call.self.readBuffer
          enough)).sockAddr? port = some (.inet6 address port) := by
        rw [resolved, found]
        rfl
      have holds : resolvedSelf.Holds (.inet6 address port) := ⟨rfl, rfl, rfl⟩
      have handled : Handled env { call with self := resolvedSelf } _ _ :=
        connectDestination_handled null inPhase.state holds target
      exact handled.of_steady (steady.trans resumed)
  | otherFamily =>
      exact .otherFamily steady inPhase.state (resolved.trans found)

theorem readAddress_handled {kind : AddressKind} (null : call.self.destinationSocket = none)
    (inPhase : call.self.InPhase (.address kind))
    (enough : kind.length ≤ call.self.readBuffer.length) :
    Handled env call (decodeAddress kind call.self.readBuffer) (call.readAddress env) := by
  cases kind with
  | ipv4 => exact readAddress_ipv4 null inPhase enough
  | domainName length => exact readAddress_domainName null inPhase enough
  | ipv6 => exact readAddress_ipv6 null inPhase enough

/-- A phase is entered by setting its threshold: the handler is called at once
where enough bytes are held, and a read is requested where they are not. -/
theorem readSomeFromClient_handled (call : Call) (phase : Phase)
    {handleClientRead : Nat → Call → Except Fault Call}
    (state : call.self.state = phase.state) (knows : call.self.Knows phase)
    (resumed : ∀ self : Session, call.self.Steady self → self.InPhase phase →
      self.readBuffer = call.self.readBuffer →
      phase.threshold ≤ self.readBuffer.length →
      Handled env { call with self } (decode phase self.readBuffer)
        (handleClientRead 0 { call with self })) :
    Handled env call (decode phase call.self.readBuffer)
      (call.readSomeFromClient env handleClientRead phase.threshold) := by
  let self : Session := { call.self with isReadCompleted := .atLeast phase.threshold }
  have steady : call.self.Steady self := ⟨rfl, rfl, rfl, rfl, rfl, rfl⟩
  have inPhase : self.InPhase phase := ⟨state, rfl, knows.congr rfl rfl rfl⟩
  unfold readSomeFromClient
  change Handled env call (decode phase self.readBuffer)
    (if self.readCompleted then handleClientRead 0 { call with self }
      else .ok ({ call with self }.addClientReadRequest env))
  split
  · next completed =>
      have arrived := inPhase.readCompleted_iff.mp completed
      exact .of_steady steady (resumed self steady inPhase rfl arrived)
  · next partially =>
      rw [decode_of_short (Nat.not_le.mp (mt inPhase.readCompleted_iff.mpr partially))]
      exact .wait steady inPhase

/-- The method a handler calls for the phase it is in. -/
def resumePhase (env : Env) (nesting : Nat) (call : Call) : Phase → Except Fault Call
  | .greeting => call.readClientGreeting env (handleClientReadNested env nesting)
  | .methods _ => call.readAuthMethods env
  | .request => call.readClientConnectionRequest env (handleClientReadNested env nesting)
  | .domainNameLength => call.readDomainNameLength env (handleClientReadNested env nesting)
  | .address _ => call.readAddress env

theorem handleClientReadNested_of_enough {phase : Phase} {nesting : Nat}
    (inPhase : call.self.InPhase phase) (enough : phase.threshold ≤ call.self.readBuffer.length) :
    handleClientReadNested env (nesting + 1) 0 call = resumePhase env nesting call phase := by
  have completed := inPhase.readCompleted_iff.mpr enough
  cases phase <;>
    simp [handleClientReadNested, completed, inPhase.state, Phase.state, resumePhase]

theorem handleClientReadNested_of_short {phase : Phase} {nesting : Nat}
    (inPhase : call.self.InPhase phase) (short : call.self.readBuffer.length < phase.threshold) :
    handleClientReadNested env (nesting + 1) 0 call =
      .ok (call.addClientReadRequest env) := by
  have incomplete : call.self.readCompleted = false := by
    rw [Bool.eq_false_iff]
    exact fun completed => Nat.not_lt.mpr (inPhase.readCompleted_iff.mp completed) short
  cases phase <;> simp [handleClientReadNested, incomplete, inPhase.state, Phase.state]

theorem handleClientReadNested_handled_of {phase : Phase} {nesting : Nat}
    (inPhase : call.self.InPhase phase)
    (resumed : phase.threshold ≤ call.self.readBuffer.length →
      Handled env call (decode phase call.self.readBuffer) (resumePhase env nesting call phase)) :
    Handled env call (decode phase call.self.readBuffer)
      (handleClientReadNested env (nesting + 1) 0 call) := by
  by_cases short : call.self.readBuffer.length < phase.threshold
  · rw [decode_of_short short, handleClientReadNested_of_short inPhase short]
    exact .wait (.refl _) inPhase
  · rw [handleClientReadNested_of_enough inPhase (Nat.not_lt.mp short)]
    exact resumed (Nat.not_lt.mp short)

theorem readDomainNameLength_handled {nesting : Nat}
    (null : call.self.destinationSocket = none)
    (inPhase : call.self.InPhase .domainNameLength) (enough : 1 ≤ call.self.readBuffer.length) :
    Handled env call (decodeDomainNameLength call.self.readBuffer)
      (call.readDomainNameLength env (handleClientReadNested env (nesting + 1))) := by
  match held : call.self.readBuffer, enough with
  | length :: rest, _ =>
      let self : Session :=
        { call.self with
          domainNameLength := some length.toNat
          readBuffer := rest
          state := .readingAddress }
      have steady : call.self.Steady self := ⟨rfl, rfl, rfl, rfl, rfl, rfl⟩
      have reached : call.readDomainNameLength env (handleClientReadNested env (nesting + 1)) =
          ({ call with self } : Call).readSomeFromClient env
            (handleClientReadNested env (nesting + 1))
            (Phase.address (.domainName length.toNat)).threshold := by
        simp only [readDomainNameLength, byteAt, held, List.getElem?_cons_zero, orFault, bind,
          Except.bind]
        rw [consumeBytesFromReadBuffer_of_le (by simp [held])]
        simp [update, held, self]
        rfl
      have knows : self.Knows (.address (.domainName length.toNat)) := ⟨inPhase.knows, rfl⟩
      rw [reached]
      apply Handled.of_steady steady
      refine readSomeFromClient_handled { call with self } (.address (.domainName length.toNat))
        rfl knows fun later next laterPhase _ _ => ?_
      refine handleClientReadNested_handled_of laterPhase fun enough => ?_
      exact readAddress_handled (next.destinationSocket.trans null) laterPhase enough

/-- The refused client is sent the same reply as the accepted one. -/
theorem readAuthMethods_handled {count : Nat} (null : call.self.destinationSocket = none)
    (inPhase : call.self.InPhase (.methods count))
    (enough : count ≤ call.self.readBuffer.length) :
    Handled env call (decodeMethods count call.self.readBuffer) (call.readAuthMethods env) := by
  have known : call.self.authMethodsCount = some count := inPhase.knows
  have within : 0 + count ≤ call.self.readBuffer.length := by omega
  have steady : ∀ method : Byte, call.self.Steady
      { call.self with
        authMethod := some method
        readBuffer := call.self.readBuffer.drop count } :=
    fun _ => ⟨rfl, rfl, rfl, rfl, rfl, rfl⟩
  by_cases offered : (0x00 : Byte) ∈ call.self.readBuffer.take count
  · have listed : ¬ (0x00 : Byte) ∉ (slice call.self.readBuffer 0 count within).toList :=
      fun missing => missing offered
    have decoded : decodeMethods count call.self.readBuffer =
        .selectMethod (call.self.readBuffer.drop count) := by
      simp only [decodeMethods, if_neg (Nat.not_lt.mpr enough), if_pos offered]
    have handled : Handled env call _ _ := .selectMethod (steady 0x00) inPhase.state
    rw [decoded]
    simpa [readAuthMethods, known, orFault, bytesAt_eq_slice within, bind, Except.bind, pure,
      Except.pure, listed, consumeBytesFromReadBuffer, enough, update] using handled
  · have listed : (0x00 : Byte) ∉ (slice call.self.readBuffer 0 count within).toList := offered
    have decoded : decodeMethods count call.self.readBuffer =
        .refuseMethods (call.self.readBuffer.drop count) := by
      simp only [decodeMethods, if_neg (Nat.not_lt.mpr enough), if_neg offered]
    have handled : Handled env call _ _ := .refuseMethods (steady 0xFF) inPhase.state
    rw [decoded]
    simpa [readAuthMethods, known, orFault, bytesAt_eq_slice within, bind, Except.bind, pure,
      Except.pure, listed, consumeBytesFromReadBuffer, enough, update, failDelayed_of_null,
      null, refuseWith] using handled

theorem readClientGreeting_handled {nesting : Nat} (null : call.self.destinationSocket = none)
    (inPhase : call.self.InPhase .greeting) (enough : 3 ≤ call.self.readBuffer.length) :
    Handled env call (decodeGreeting call.self.readBuffer)
      (call.readClientGreeting env (handleClientReadNested env (nesting + 1))) := by
  match held : call.self.readBuffer, enough with
  | version :: count :: first :: rest, _ =>
      by_cases wrongVersion : version ≠ 0x05
      · have decoded : decodeGreeting (version :: count :: first :: rest) = .close := by
          simp [decodeGreeting, wrongVersion]
        have closed : Handled env call .close call.failImmediately :=
          .close (.refl _) inPhase.state
        rw [decoded]
        simpa [readClientGreeting, byteAt, held, orFault, bind, Except.bind, wrongVersion]
          using closed
      · by_cases noMethods : count.toNat = 0
        · have decoded : decodeGreeting (version :: count :: first :: rest) = .close := by
            simp [decodeGreeting, noMethods]
          have closed : Handled env call .close ({ call with self := { call.self with
              authMethodsCount := some count.toNat } } : Call).failImmediately :=
            .close ⟨rfl, rfl, rfl, rfl, rfl, rfl⟩ inPhase.state
          rw [decoded]
          simpa [readClientGreeting, byteAt, held, orFault, bind, Except.bind, wrongVersion,
            noMethods, update] using closed
        · let self : Session :=
            { call.self with
              authMethodsCount := some count.toNat
              readBuffer := first :: rest
              state := .readingAuthMethods }
          have steady : call.self.Steady self := ⟨rfl, rfl, rfl, rfl, rfl, rfl⟩
          have decoded : decodeGreeting (version :: count :: first :: rest) =
              decode (.methods count.toNat) self.readBuffer := by
            simp [decodeGreeting, wrongVersion, noMethods, decode, self]
          have reached : call.readClientGreeting env (handleClientReadNested env (nesting + 1)) =
              ({ call with self } : Call).readSomeFromClient env
                (handleClientReadNested env (nesting + 1))
                (Phase.methods count.toNat).threshold := by
            simp [readClientGreeting, byteAt, held, orFault, bind, Except.bind, wrongVersion,
              noMethods, update, consumeBytesFromReadBuffer, self, Phase.threshold]
          rw [reached, decoded]
          apply Handled.of_steady steady
          refine readSomeFromClient_handled { call with self } (.methods count.toNat) rfl rfl
            fun later next laterPhase _ _ => ?_
          refine handleClientReadNested_handled_of laterPhase fun enough => ?_
          exact readAuthMethods_handled (next.destinationSocket.trans null) laterPhase enough

private theorem refuse_handled {code : Byte} (self : Session)
    (null : call.self.destinationSocket = none) (steady : call.self.Steady self)
    (state : self.state = .readingClientConnectionRequest) :
    Handled env call (.refuse code) (({ call with self } : Call).sendFailMessage env code) := by
  have refused : ({ call with self } : Call).sendFailMessage env code =
      .ok (({ call with self } : Call).refuseWith env (failMessage code)) :=
    sendFailMessage_of_null (steady.destinationSocket.trans null)
  rw [refused]
  exact .refuse steady state

private theorem openAddress_handled {nesting : Nat} (kind : AddressKind) (self : Session)
    (null : call.self.destinationSocket = none) (steady : call.self.Steady self)
    (state : self.state = .readingAddress) (knows : self.Knows (.address kind)) :
    Handled env call (decodeAddress kind self.readBuffer)
      (({ call with self } : Call).readSomeFromClient env
        (handleClientReadNested env (nesting + 1)) kind.length) := by
  apply Handled.of_steady steady
  refine readSomeFromClient_handled { call with self } (.address kind) state knows
    fun later next laterPhase _ _ => ?_
  refine handleClientReadNested_handled_of laterPhase fun enough => ?_
  exact readAddress_handled
    (next.destinationSocket.trans (steady.destinationSocket.trans null)) laterPhase enough

private theorem openDomainName_handled {nesting : Nat} (self : Session)
    (null : call.self.destinationSocket = none) (steady : call.self.Steady self)
    (state : self.state = .readingDomainNameLength)
    (knows : self.Knows .domainNameLength) :
    Handled env call (decodeDomainNameLength self.readBuffer)
      (({ call with self } : Call).readSomeFromClient env
        (handleClientReadNested env (nesting + 2)) 1) := by
  apply Handled.of_steady steady
  refine readSomeFromClient_handled { call with self } .domainNameLength state knows
    fun later next laterPhase _ _ => ?_
  refine handleClientReadNested_handled_of laterPhase fun enough => ?_
  exact readDomainNameLength_handled
    (next.destinationSocket.trans (steady.destinationSocket.trans null)) laterPhase enough

theorem readClientConnectionRequest_handled {nesting : Nat}
    (null : call.self.destinationSocket = none)
    (inPhase : call.self.InPhase .request) (enough : 4 ≤ call.self.readBuffer.length) :
    Handled env call (decodeRequest call.self.readBuffer)
      (call.readClientConnectionRequest env (handleClientReadNested env (nesting + 2))) := by
  match held : call.self.readBuffer, enough with
  | version :: command :: reserved :: addressType :: rest, _ =>
      have state : call.self.state = .readingClientConnectionRequest := inPhase.state
      by_cases wrongVersion : version ≠ 0x05
      · have refused : Handled env call (.refuse 0x07) (call.sendFailMessage env 0x07) :=
          refuse_handled call.self null (.refl _) state
        simpa [readClientConnectionRequest, byteAt, held, orFault, bind, Except.bind,
          wrongVersion, decodeRequest] using refused
      by_cases wrongCommand : command ≠ Command.connect.code
      · have refused : Handled env call (.refuse 0x07) (call.sendFailMessage env 0x07) :=
          refuse_handled call.self null (.refl _) state
        simpa [readClientConnectionRequest, byteAt, held, orFault, bind, Except.bind,
          wrongVersion, wrongCommand, decodeRequest] using refused
      let accepted : Session := { call.self with command := some .connect }
      by_cases wrongReserved : reserved ≠ 0x00
      · have refused : Handled env call (.refuse 0x07)
            (({ call with self := accepted } : Call).sendFailMessage env 0x07) :=
          refuse_handled accepted null ⟨rfl, rfl, rfl, rfl, rfl, rfl⟩ state
        simpa [readClientConnectionRequest, byteAt, held, orFault, bind, Except.bind,
          wrongVersion, wrongCommand, wrongReserved, decodeRequest, update, accepted]
          using refused
      have headAccepted :
          ¬ (version ≠ 0x05 ∨ command ≠ Command.connect.code ∨ reserved ≠ 0x00) := by
        simp only [not_or]
        exact ⟨wrongVersion, wrongCommand, wrongReserved⟩
      let opened (type : AddressType) (state : State) : Session :=
        { accepted with addressType := some type, state, readBuffer := rest }
      let named := opened .domainName .readingDomainNameLength
      have steady : ∀ type state, call.self.Steady (opened type state) :=
        fun _ _ => ⟨rfl, rfl, rfl, rfl, rfl, rfl⟩
      have reached : call.readClientConnectionRequest env
            (handleClientReadNested env (nesting + 2)) =
          if addressType = AddressType.ipv4.code then
            ({ call with self := opened .ipv4 .readingAddress } : Call).readSomeFromClient env
              (handleClientReadNested env (nesting + 2)) 6
          else if addressType = AddressType.domainName.code then
            ({ call with self := named } : Call).readSomeFromClient env
              (handleClientReadNested env (nesting + 2)) 1
          else if addressType = AddressType.ipv6.code then
            ({ call with self := opened .ipv6 .readingAddress } : Call).readSomeFromClient env
              (handleClientReadNested env (nesting + 2)) 18
          else
            ({ call with self := { accepted with
                readBuffer := rest } } : Call).sendFailMessage env 0x08 := by
        simp [readClientConnectionRequest, byteAt, held, orFault, bind, Except.bind, wrongVersion,
          wrongCommand, wrongReserved, consumeBytesFromReadBuffer, update, named, opened, accepted]
      rw [reached]
      simp only [decodeRequest, if_neg headAccepted]
      split
      · exact openAddress_handled .ipv4 (opened .ipv4 .readingAddress) null (steady _ _) rfl rfl
      · split
        · exact openDomainName_handled named null (steady _ _) rfl rfl
        · split
          · exact openAddress_handled .ipv6 (opened .ipv6 .readingAddress) null (steady _ _) rfl rfl
          · exact refuse_handled { accepted with readBuffer := rest } null
              ⟨rfl, rfl, rfl, rfl, rfl, rfl⟩ state

/-- In every phase the handler does what the bytes held decode to; the calls
it nests never run out. -/
theorem handleClientReadNested_handled {phase : Phase}
    (null : call.self.destinationSocket = none) (inPhase : call.self.InPhase phase) :
    Handled env call (decode phase call.self.readBuffer)
      (handleClientReadNested env maxNesting 0 call) := by
  refine handleClientReadNested_handled_of inPhase fun enough => ?_
  cases phase with
  | greeting => exact readClientGreeting_handled null inPhase enough
  | methods count => exact readAuthMethods_handled null inPhase enough
  | request => exact readClientConnectionRequest_handled null inPhase enough
  | domainNameLength => exact readDomainNameLength_handled null inPhase enough
  | address kind => exact readAddress_handled null inPhase enough

/-- What a read of `nread` bytes from the client appends to the read buffer. -/
def receive (nread : Nat) (call : Call) : Call :=
  call.update fun self =>
    { self with readBuffer := self.readBuffer ++ call.buffers.load self.buffer0.first nread }

/-- In the handshake a read is handled as if the bytes it brought had been held. -/
theorem handleClientRead_eq_nested (nread : Nat) (early : call.self.state ≠ .proxyingRequests) :
    call.handleClientRead env nread =
      handleClientReadNested env maxNesting 0 (call.receive nread) := by
  by_cases nothing : nread = 0
  · subst nothing
    have same : call.receive 0 = call := by simp [receive, update]
    rw [same]
    rfl
  · simp [handleClientRead, maxNesting, handleClientReadNested, early, nothing, receive, update]

theorem handleClientRead_handled {phase : Phase} (nread : Nat)
    (null : call.self.destinationSocket = none) (inPhase : call.self.InPhase phase) :
    Handled env (call.receive nread) (decode phase (call.receive nread).self.readBuffer)
      (call.handleClientRead env nread) := by
  have early : call.self.state ≠ .proxyingRequests := by
    rw [inPhase.state]
    cases phase <;> simp [Phase.state]
  have later : (call.receive nread).self.InPhase phase :=
    ⟨inPhase.state, inPhase.awaits, inPhase.knows.congr rfl rfl rfl⟩
  rw [handleClientRead_eq_nested nread early]
  exact handleClientReadNested_handled null later

end Call

end ModernCppHw.Socks5
