import ModernCppHw.Socks5.Types

/-! The methods of a session and the request builders of the ring, as functions
on what one call reads and changes. A request built during a call is collected
in `submitted`; the event loop hands it to the ring when the call returns. -/

set_option autoImplicit false

namespace ModernCppHw.Socks5

/-- What `::gethostbyname` found: nothing, the first entry of an address
family the server knows, or an entry of another family. -/
inductive Hostent where
  | failure
  | inet (address : InAddr)
  | inet6 (address : In6Addr)
  | otherFamily
  deriving DecidableEq

/-- How the construction of a destination socket ends: with a new descriptor,
by `syscall_wrapper::Error`, or by any other exception. -/
inductive SocketResult where
  | created (fd : Fd)
  | error (errno : Int)
  | otherException
  deriving DecidableEq

/-- What the methods consult besides the session: the ring's mode, whether
assertions are compiled out, and the answers of the system during the call. -/
structure Env where
  isRoot : Bool
  ndebug : Bool
  gethostbyname : List Byte → Hostent
  socket : SocketResult

/-- What one call of a session's method reads and changes. -/
structure Call where
  self : Session
  buffers : Memory Byte
  files : List Fd
  submitted : List Request

/-- A branch the source guards by `assert(false)`. -/
def Env.unreachable (env : Env) (call : Call) : Except Fault Call :=
  if env.ndebug then .ok call else .error .assertionFailed

/-- `syscall_wrapper::close`: closing a number that names no open file throws. -/
def closeFile (files : List Fd) (fd : Fd) : Except Fault (List Fd) :=
  if fd ∈ files then .ok (files.erase fd) else .error .closeFailed

/-- `Socket::~Socket`. -/
def closeSocket (files : List Fd) (socket : Socket) : Except Fault (List Fd) :=
  if socket.fd ≠ -1 then closeFile files socket.fd else .ok files

/-- The destructor of `m_destination_socket`, which may be null. -/
def destroySocket (files : List Fd) : Option Socket → Except Fault (List Fd)
  | none => .ok files
  | some socket => closeSocket files socket

/-- How `~Session` begins. -/
def Session.closeFd (session : Session) (files : List Fd) : Except Fault (List Fd) :=
  if session.fd ≠ -1 then closeFile files session.fd else .ok files

theorem length_take_drop {bytes : List Byte} {offset length : Nat}
    (within : offset + length ≤ bytes.length) :
    ((bytes.drop offset).take length).length = length := by
  rw [List.length_take, List.length_drop]
  omega

/-- The bytes `offset .. offset + length - 1` of a vector. -/
def bytesAt (bytes : List Byte) (offset length : Nat) : Except Fault (List.Vector Byte length) :=
  if within : offset + length ≤ bytes.length then
    .ok ⟨(bytes.drop offset).take length, length_take_drop within⟩
  else .error .outOfRange

def byteAt (bytes : List Byte) (offset : Nat) : Except Fault Byte :=
  orFault .outOfRange bytes[offset]?

/-- The name as `c_str()` shows it to a callee: up to the first zero byte. -/
def cString (name : List Byte) : List Byte := name.takeWhile (· ≠ 0)

def eNetUnreach : Int := 101

def eHostUnreach : Int := 113

def eConnRefused : Int := 111

/-- The reply by which a request is refused: version, code, reserved byte, IPv4
address type, and an address and port of zeroes. -/
def failMessage (errorCode : Byte) : List Byte :=
  [0x05, errorCode, 0x00, 0x01, 0, 0, 0, 0, 0, 0]

/-! The requests the ring's builders prepare for a session. In root mode these
are the `_fixed` operations, which name the registered buffer. -/

namespace Session

variable (isRoot : Bool) (self : Session)

def registered (bufferIndex : Nat) : Option Nat := if isRoot then some bufferIndex else none

def clientReadLength : Nat := if isRoot then halfBufferSize else bufferSize

def clientReadRequest : Request where
  type := .clientRead
  operation := .read self.fd ⟨self.buffer0.first, clientReadLength isRoot⟩ 0
    (registered isRoot self.buffer0Index)

def clientWriteRequest (nbytes offset : Nat) : Request where
  type := .clientWrite
  operation := .write self.fd ⟨self.buffer1.first, nbytes⟩ offset
    (registered isRoot self.buffer1Index)

def destinationConnectRequest (socket : Socket) : Request where
  type := .destinationConnect
  operation := .connect socket.fd socket.address

def destinationReadRequest (socket : Socket) : Request where
  type := .destinationRead
  operation := .read socket.fd ⟨self.buffer1.first, halfBufferSize⟩ 0
    (registered isRoot self.buffer1Index)

def destinationWriteRequest (socket : Socket) (nbytes offset : Nat) : Request where
  type := .destinationWrite
  operation := .write socket.fd ⟨self.buffer0.first, nbytes⟩ offset
    (registered isRoot self.buffer0Index)

end Session

namespace Call

def update (call : Call) (change : Session → Session) : Call :=
  { call with self := change call.self }

def submit (call : Call) (request : Request) : Call :=
  { call with submitted := call.submitted ++ [request] }

/-- `++client->awaiting_events_count`. -/
def expectEvent (call : Call) : Call :=
  call.update fun self => { self with awaitingEventsCount := self.awaitingEventsCount + 1 }

variable (env : Env)

def addClientReadRequest (call : Call) : Call :=
  call.expectEvent.submit (call.self.clientReadRequest env.isRoot)

def addClientWriteRequest (nbytes offset : Nat) (call : Call) : Call :=
  call.expectEvent.submit (call.self.clientWriteRequest env.isRoot nbytes offset)

/-- `client->destination_socket()`, which the builders dereference. -/
def destinationSocket (call : Call) : Except Fault Socket :=
  orFault .nullDestinationSocket call.self.destinationSocket

def addDestinationConnectRequest (call : Call) : Except Fault Call := do
  let socket ← call.destinationSocket
  return call.submit (Session.destinationConnectRequest socket)

def addDestinationReadRequest (call : Call) : Except Fault Call := do
  let socket ← call.destinationSocket
  return call.expectEvent.submit (call.self.destinationReadRequest env.isRoot socket)

def addDestinationWriteRequest (nbytes offset : Nat) (call : Call) : Except Fault Call := do
  let socket ← call.destinationSocket
  return call.expectEvent.submit (call.self.destinationWriteRequest env.isRoot socket nbytes offset)

/-- `m_destination_socket.reset()`. -/
def resetDestinationSocket (call : Call) : Except Fault Call := do
  let files ← destroySocket call.files call.self.destinationSocket
  return { call with files }.update fun self => { self with destinationSocket := none }

def failDelayed (call : Call) : Except Fault Call :=
  (call.update fun self => { self with isFailed := true }).resetDestinationSocket

def failImmediately (call : Call) : Except Fault Call := do
  let call ← call.failDelayed
  let files ← closeFile call.files call.self.fd
  return { call with files }.update fun self => { self with fd := -1 }

def consumeBytesFromReadBuffer (nread : Nat) (call : Call) : Except Fault Call :=
  if nread ≤ call.self.readBuffer.length then
    .ok (call.update fun self => { self with readBuffer := self.readBuffer.drop nread })
  else .error .outOfRange

/-- At most one half buffer of the message is copied and written at a time. -/
def writeToClient (call : Call) : Call :=
  let cnt := min halfBufferSize call.self.writeClientBuffer.length
  let buffers := call.buffers.store call.self.buffer1.first (call.self.writeClientBuffer.take cnt)
  { call with buffers }.addClientWriteRequest env cnt 0

def sendFailMessage (errorCode : Byte) (call : Call) : Except Fault Call := do
  let call ← call.failDelayed
  return (call.update fun self =>
    { self with writeClientBuffer := failMessage errorCode }).writeToClient env

def translateErrno (errorCode : Int) (call : Call) : Except Fault Call :=
  if errorCode = eNetUnreach then call.sendFailMessage env 0x03
  else if errorCode = eHostUnreach then call.sendFailMessage env 0x04
  else if errorCode = eConnRefused then call.sendFailMessage env 0x05
  else call.sendFailMessage env 0x01

/-- `read_some_from_client`; the handler it may call again is a parameter. -/
def readSomeFromClient (handleClientRead : Nat → Call → Except Fault Call) (n : Nat)
    (call : Call) : Except Fault Call :=
  let call := call.update fun self => { self with isReadCompleted := .atLeast n }
  if call.self.readCompleted then handleClientRead 0 call
  else .ok (call.addClientReadRequest env)

def readFromClient (handleClientRead : Nat → Call → Except Fault Call)
    (call : Call) : Except Fault Call :=
  let call := call.update fun self => { self with isReadCompleted := .nonempty }
  if call.self.readCompleted then handleClientRead 0 call
  else .ok (call.addClientReadRequest env)

def readClientGreeting (handleClientRead : Nat → Call → Except Fault Call)
    (call : Call) : Except Fault Call := do
  let version ← byteAt call.self.readBuffer 0
  if version ≠ 0x05 then call.failImmediately
  else
    let count ← byteAt call.self.readBuffer 1
    let call := call.update fun self => { self with authMethodsCount := some count.toNat }
    if count.toNat = 0 then call.failImmediately
    else
      let call ← call.consumeBytesFromReadBuffer 2
      (call.update fun self =>
        { self with state := .readingAuthMethods }).readSomeFromClient
          env handleClientRead count.toNat

def readAuthMethods (call : Call) : Except Fault Call := do
  let count ← orFault .uninitialised call.self.authMethodsCount
  let methods ← bytesAt call.self.readBuffer 0 count
  let call ←
    if (0x00 : Byte) ∉ methods.toList then
      (call.update fun self => { self with authMethod := some 0xFF }).failDelayed
    else
      pure (call.update fun self => { self with authMethod := some 0x00 })
  let call ← call.consumeBytesFromReadBuffer count
  -- the reply is built from constants, whichever method was selected
  return (call.update fun self => { self with writeClientBuffer := [0x05, 0x00] }).writeToClient env

def readClientConnectionRequest (handleClientRead : Nat → Call → Except Fault Call)
    (call : Call) : Except Fault Call := do
  let version ← byteAt call.self.readBuffer 0
  if version ≠ 0x05 then call.sendFailMessage env 0x07
  else
    let command ← byteAt call.self.readBuffer 1
    if command ≠ Command.connect.code then call.sendFailMessage env 0x07
    else
      let call := call.update fun self => { self with command := some .connect }
      let reserved ← byteAt call.self.readBuffer 2
      if reserved ≠ 0x00 then call.sendFailMessage env 0x07
      else
        let addressType ← byteAt call.self.readBuffer 3
        let call ← call.consumeBytesFromReadBuffer 4
        if addressType = AddressType.ipv4.code then
          (call.update fun self =>
            { self with addressType := some .ipv4
                        state := .readingAddress }).readSomeFromClient env handleClientRead 6
        else if addressType = AddressType.domainName.code then
          (call.update fun self =>
            { self with addressType := some .domainName
                        state := .readingDomainNameLength }).readSomeFromClient
              env handleClientRead 1
        else if addressType = AddressType.ipv6.code then
          (call.update fun self =>
            { self with addressType := some .ipv6
                        state := .readingAddress }).readSomeFromClient env handleClientRead 18
        else call.sendFailMessage env 0x08

def readDomainNameLength (handleClientRead : Nat → Call → Except Fault Call)
    (call : Call) : Except Fault Call := do
  let length ← byteAt call.self.readBuffer 0
  let call := call.update fun self => { self with domainNameLength := some length.toNat }
  let call ← call.consumeBytesFromReadBuffer 1
  let call := call.update fun self => { self with state := .readingAddress }
  call.readSomeFromClient env handleClientRead (length.toNat + 2)

/-- `m_destination_socket = std::make_unique<...>(...)` once the socket is open. -/
def assignDestinationSocket (socket : Socket) (call : Call) : Except Fault Call := do
  let call ← { call with files := socket.fd :: call.files }.resetDestinationSocket
  return call.update fun self => { self with destinationSocket := some socket }

/-- The common part of the two connect methods. After `translate_errno` the
source goes on to the connect request, unlike after any other exception. -/
def connectDestination (address : SockAddr) (call : Call) : Except Fault Call :=
  let proceed (call : Call) : Except Fault Call :=
    (call.update fun self =>
      { self with state := .connectingToDestination }).addDestinationConnectRequest
  match env.socket with
  | .created fd => do proceed (← call.assignDestinationSocket ⟨fd, address⟩)
  | .error errno => do proceed (← call.translateErrno env errno)
  | .otherException => call.sendFailMessage env 0x01

def connectIpv4Destination (call : Call) : Except Fault Call := do
  let address ← orFault .uninitialised call.self.ipv4Address
  let port ← orFault .uninitialised call.self.port
  call.connectDestination env (constructAddressIpv4 address port)

def connectIpv6Destination (call : Call) : Except Fault Call := do
  let address ← orFault .uninitialised call.self.ipv6Address
  let port ← orFault .uninitialised call.self.port
  call.connectDestination env (constructAddressIpv6 address port)

def readAddress (call : Call) : Except Fault Call := do
  let addressType ← orFault .uninitialised call.self.addressType
  match addressType with
  | .ipv4 =>
      let address ← bytesAt call.self.readBuffer 0 4
      let port ← bytesAt call.self.readBuffer 4 2
      let call := call.update fun self =>
        { self with ipv4Address := some address, port := some port }
      let call ← call.consumeBytesFromReadBuffer 6
      call.connectIpv4Destination env
  | .domainName =>
      let length ← orFault .uninitialised call.self.domainNameLength
      let name ← bytesAt call.self.readBuffer 0 length
      let port ← bytesAt call.self.readBuffer length 2
      let call := call.update fun self =>
        { self with domainName := name.toList, port := some port }
      let call ← call.consumeBytesFromReadBuffer (length + 2)
      match env.gethostbyname (cString call.self.domainName) with
      | .failure => call.sendFailMessage env 0x04
      | .inet address =>
          (call.update fun self =>
            { self with addressType := some .ipv4
                        ipv4Address := some address }).connectIpv4Destination env
      | .inet6 address =>
          (call.update fun self =>
            { self with addressType := some .ipv6
                        ipv6Address := some address }).connectIpv6Destination env
      | .otherFamily => env.unreachable call
  | .ipv6 =>
      let address ← bytesAt call.self.readBuffer 0 16
      let port ← bytesAt call.self.readBuffer 16 2
      let call := call.update fun self =>
        { self with ipv6Address := some address, port := some port }
      let call ← call.consumeBytesFromReadBuffer 18
      call.connectIpv6Destination env

/-- `handle_client_read` with the number of calls that may still be nested in
it. Every nested call is made in a later protocol state. -/
def handleClientReadNested : Nat → Nat → Call → Except Fault Call
  | 0, _, _ => .error .nesting
  | nesting + 1, nread, call =>
      if call.self.state = .proxyingRequests then
        (call.update fun self =>
          { self with destinationWriteOffset := some 0
                      destinationWriteSize := some nread }).addDestinationWriteRequest env nread 0
      else
        let call :=
          if nread ≠ 0 then
            call.update fun self =>
              { self with readBuffer :=
                  self.readBuffer ++ call.buffers.load self.buffer0.first nread }
          else call
        if !call.self.readCompleted then .ok (call.addClientReadRequest env)
        else
          match call.self.state with
          | .readingClientGreeting =>
              call.readClientGreeting env (handleClientReadNested nesting)
          | .readingAuthMethods => call.readAuthMethods env
          | .readingClientConnectionRequest =>
              call.readClientConnectionRequest env (handleClientReadNested nesting)
          | .readingDomainNameLength =>
              call.readDomainNameLength env (handleClientReadNested nesting)
          | .readingAddress => call.readAddress env
          | .connectingToDestination | .proxyingRequests => env.unreachable call

/-- Three protocol states at most are passed within one completion. -/
def maxNesting : Nat := 3

def handleClientRead (nread : Nat) (call : Call) : Except Fault Call :=
  handleClientReadNested env maxNesting nread call

def handleClientWrite (nwrite : Nat) (call : Call) : Except Fault Call := do
  if call.self.state = .proxyingRequests then
    let offset ← orFault .uninitialised call.self.clientWriteOffset
    let size ← orFault .uninitialised call.self.clientWriteSize
    if unsignedAdd nwrite offset = size then
      call.addDestinationReadRequest env
    else
      let offset := unsignedAdd offset nwrite
      return (call.update fun self =>
        { self with clientWriteOffset := some offset }).addClientWriteRequest
          env (unsignedSub size offset) offset
  else if nwrite ≤ call.self.writeClientBuffer.length then
    let call := call.update fun self =>
      { self with writeClientBuffer := self.writeClientBuffer.drop nwrite }
    if !call.self.writeClientBuffer.isEmpty then .ok (call.writeToClient env)
    else
      match call.self.state with
      | .readingAuthMethods =>
          (call.update fun self =>
            { self with state := .readingClientConnectionRequest }).readSomeFromClient
              env (handleClientRead env) 4
      | .connectingToDestination => do
          let call ← (call.update fun self =>
            { self with state := .proxyingRequests }).addDestinationReadRequest env
          call.readFromClient env (handleClientRead env)
      | _ => env.unreachable call
  else .error .outOfRange

def handleDestinationConnect (call : Call) : Except Fault Call := do
  if call.self.state ≠ .connectingToDestination ∧ env.ndebug = false then
    .error .assertionFailed
  else
    let addressType ← orFault .uninitialised call.self.addressType
    match addressType with
    | .ipv4 =>
        let address ← orFault .uninitialised call.self.ipv4Address
        let port ← orFault .uninitialised call.self.port
        return (call.update fun self =>
          { self with writeClientBuffer :=
              [0x05, 0x00, 0x00, 0x01] ++ address.toList ++ port.toList }).writeToClient env
    | .ipv6 =>
        let address ← orFault .uninitialised call.self.ipv6Address
        let port ← orFault .uninitialised call.self.port
        return (call.update fun self =>
          { self with writeClientBuffer :=
              [0x05, 0x00, 0x00, 0x04] ++ address.toList ++ port.toList }).writeToClient env
    | .domainName => env.unreachable call

def handleDestinationRead (nread : Nat) (call : Call) : Call :=
  (call.update fun self =>
    { self with clientWriteOffset := some 0
                clientWriteSize := some nread }).addClientWriteRequest env nread 0

def handleDestinationWrite (nwrite : Nat) (call : Call) : Except Fault Call := do
  let offset ← orFault .uninitialised call.self.destinationWriteOffset
  let size ← orFault .uninitialised call.self.destinationWriteSize
  if unsignedAdd nwrite offset = size then
    return call.addClientReadRequest env
  else
    let offset := unsignedAdd offset nwrite
    (call.update fun self =>
      { self with destinationWriteOffset := some offset }).addDestinationWriteRequest
        env (unsignedSub size offset) offset

end Call

end ModernCppHw.Socks5
