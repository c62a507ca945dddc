import ModernCppHw.Lib.Memory
import ModernCppHw.Lib.Heap
import Mathlib.Data.Vector.Basic

/-! Data of the SOCKS5 server: events and the pools they and the buffers are
drawn from, the requests handed to the ring, and one client's session. -/

set_option autoImplicit false

namespace ModernCppHw.Socks5

abbrev Byte := UInt8

/-- A file descriptor; `-1` names no file. -/
abbrev Fd := Int

/-- Where a session lives; an identity is never reused, an address may be. -/
abbrev SessionId := Nat

abbrev EventId := Nat

abbrev InAddr := List.Vector Byte 4

abbrev In6Addr := List.Vector Byte 16

/-- A port as the two bytes of network order. -/
abbrev InPort := List.Vector Byte 2

/-- Ways a call may end other than by returning. The first is a thrown
exception; an assertion aborts a build with assertions; the rest are undefined
behaviour in the source. `nesting` belongs to the model alone: it would say
that the handlers called each other more deeply than the model unrolls. -/
inductive Fault where
  | closeFailed
  | assertionFailed
  | nullDestinationSocket
  | outOfRange
  | uninitialised
  | emptyEventPool
  | danglingSession
  | nesting
  deriving DecidableEq

def orFault {Value : Type} (fault : Fault) : Option Value → Except Fault Value
  | some value => .ok value
  | none => .error fault

/-! Arithmetic on the source's 32-bit `unsigned`. -/

def unsignedModulus : Nat := 2 ^ 32

def unsignedAdd (left right : Nat) : Nat := (left + right) % unsignedModulus

def unsignedSub (left right : Nat) : Nat := (left + (unsignedModulus - right)) % unsignedModulus

def unsignedMul (left right : Nat) : Nat := (left * right) % unsignedModulus

/-- `--count` on a `std::size_t`, which wraps at zero. -/
def sizeDecrement (count : Nat) : Nat := if count = 0 then 2 ^ 64 - 1 else count - 1

inductive EventType where
  | clientAccept
  | clientRead
  | clientWrite
  | destinationConnect
  | destinationRead
  | destinationWrite
  deriving DecidableEq

inductive State where
  | readingClientGreeting
  | readingAuthMethods
  | readingClientConnectionRequest
  | readingDomainNameLength
  | readingAddress
  | connectingToDestination
  | proxyingRequests
  deriving DecidableEq

inductive Command where
  | connect
  | bind
  | udpAssociate
  deriving DecidableEq

def Command.code : Command → Byte
  | .connect => 0x01
  | .bind => 0x02
  | .udpAssociate => 0x03

inductive AddressType where
  | ipv4
  | domainName
  | ipv6
  deriving DecidableEq

def AddressType.code : AddressType → Byte
  | .ipv4 => 0x01
  | .domainName => 0x03
  | .ipv6 => 0x04

/-! Sockets and the requests that name them. -/

/-- `sockaddr_in` and `sockaddr_in6`; the fields the source zeroes are left out. -/
inductive SockAddr where
  | inet (address : InAddr) (port : InPort)
  | inet6 (address : In6Addr) (port : InPort)
  deriving DecidableEq

def constructAddressIpv4 (address : InAddr) (port : InPort) : SockAddr := .inet address port

def constructAddressIpv6 (address : In6Addr) (port : InPort) : SockAddr := .inet6 address port

structure Socket where
  fd : Fd
  address : SockAddr
  deriving DecidableEq

/-- A submission queue entry without its user data. The buffer index of a read
or write is that of the registered buffer for the `_fixed` operations. -/
inductive Operation where
  | accept (fd : Fd)
  | connect (fd : Fd) (address : SockAddr)
  | read (fd : Fd) (buffer : Region) (offset : Nat) (bufferIndex : Option Nat)
  | write (fd : Fd) (buffer : Region) (offset : Nat) (bufferIndex : Option Nat)
  deriving DecidableEq

/-- The memory a request reads from or stores to. -/
def Operation.region : Operation → Region
  | .accept _ | .connect _ _ => ⟨0, 0⟩
  | .read _ buffer _ _ | .write _ buffer _ _ => buffer

def Operation.fd : Operation → Fd
  | .accept fd | .connect fd _ | .read fd _ _ _ | .write fd _ _ _ => fd

/-- A request as a session's methods build it, before it has been given an event. -/
structure Request where
  type : EventType
  operation : Operation
  deriving DecidableEq

/-! The event pool. -/

/-- `Event::client` and `Event::type`; `Event::id` is the event's position. -/
structure Event where
  client : SessionId
  type : EventType
  deriving DecidableEq

/-- `none` marks an event whose fields have not been assigned yet. -/
structure EventPool where
  events : EventId → Option Event
  freeEvents : List EventId

def EventPool.new (nconnections : Nat) : EventPool where
  events := fun _ => none
  freeEvents := List.range (4 * nconnections)

/-- Take the first free event and fill in its fields. -/
def EventPool.obtainEvent (pool : EventPool) (event : Event) :
    Except Fault (EventId × EventPool) :=
  match pool.freeEvents with
  | [] => .error .emptyEventPool
  | id :: freeEvents =>
      .ok (id, { events := fun other => if other = id then some event else pool.events other
                 freeEvents })

def EventPool.returnEvent (pool : EventPool) (id : EventId) : EventPool :=
  { pool with freeEvents := pool.freeEvents ++ [id] }

/-! The buffer pool. -/

def halfBufferSize : Nat := 2 ^ 14

/-- The lower half receives from the client and sends to the destination, the
upper half the other way round. -/
def bufferSize : Nat := halfBufferSize * 2

structure BufferPool where
  buffers : Memory Byte
  freeBuffers : List Nat

def BufferPool.new (nconnections : Nat) : BufferPool where
  buffers := fun _ => 0
  freeBuffers := List.range nconnections

/-- `none` stands for `InsufficientBuffersException`. -/
def BufferPool.obtainFreeBuffer (pool : BufferPool) : Option (Nat × BufferPool) :=
  match pool.freeBuffers with
  | [] => none
  | index :: freeBuffers => some (index, { pool with freeBuffers })

def BufferPool.returnBuffer (pool : BufferPool) (index : Nat) : BufferPool :=
  { pool with freeBuffers := pool.freeBuffers ++ [index] }

/-- A `std::span` by the addresses it runs from and to, counted from the start
of the pool's bytes. -/
structure Span where
  first : Nat
  last : Nat
  deriving DecidableEq

def bufferHalf0 (bufferIndex : Nat) : Span where
  first := unsignedMul bufferIndex bufferSize
  last := unsignedMul bufferIndex bufferSize + halfBufferSize

def bufferHalf1 (bufferIndex : Nat) : Span where
  first := unsignedMul bufferIndex bufferSize + halfBufferSize
  last := unsignedMul (unsignedAdd bufferIndex 1) bufferSize

/-! Sessions. -/

/-- The conditions the source stores in `m_is_read_completed`. -/
inductive ReadCompletion where
  | always
  | nonempty
  | atLeast (count : Nat)
  deriving DecidableEq

def ReadCompletion.holds (readBuffer : List Byte) : ReadCompletion → Bool
  | .always => true
  | .nonempty => !readBuffer.isEmpty
  | .atLeast count => decide (count ≤ readBuffer.length)

/-- `none` marks a field the constructor leaves uninitialised, and for
`destinationSocket` a null pointer. -/
structure Session where
  fd : Fd
  state : State := .readingClientGreeting
  awaitingEventsCount : Nat := 0
  bufferIndex : Nat
  isReadCompleted : ReadCompletion := .always
  readBuffer : List Byte := []
  writeClientBuffer : List Byte := []
  authMethodsCount : Option Nat := none
  authMethod : Option Byte := none
  command : Option Command := none
  addressType : Option AddressType := none
  domainNameLength : Option Nat := none
  domainName : List Byte := []
  ipv4Address : Option InAddr := none
  ipv6Address : Option In6Addr := none
  port : Option InPort := none
  destinationSocket : Option Socket := none
  clientWriteSize : Option Nat := none
  clientWriteOffset : Option Nat := none
  destinationWriteSize : Option Nat := none
  destinationWriteOffset : Option Nat := none
  isFailed : Bool := false
  deriving DecidableEq

namespace Session

def buffer0 (self : Session) : Span := bufferHalf0 self.bufferIndex

def buffer1 (self : Session) : Span := bufferHalf1 self.bufferIndex

def buffer0Index (self : Session) : Nat := unsignedAdd (unsignedMul 2 self.bufferIndex) 0

def buffer1Index (self : Session) : Nat := unsignedAdd (unsignedMul 2 self.bufferIndex) 1

/-- Calling the stored condition. -/
def readCompleted (self : Session) : Bool := self.isReadCompleted.holds self.readBuffer

end Session

end ModernCppHw.Socks5
