import ModernCppHw.Lib.FreeQueue
import ModernCppHw.Lib.Simulation
import ModernCppHw.Socks5.Session

/-! The event loop of one ring: one iteration handles one completion. The
kernel's part is what is in flight, which descriptors are open, and a record
of the bytes that crossed the sockets. -/

set_option autoImplicit false

namespace ModernCppHw.Socks5

/-- What an `IoUring` is constructed with. The capacity is positive, since the
kernel sets up no ring without entries, and keeps the pool's size in range of
the 32-bit products that address it. `files` are the descriptors already open. -/
structure Config where
  nconnections : Nat
  isRoot : Bool
  ndebug : Bool
  listenFd : Fd
  files : List Fd
  positive : 0 < nconnections
  inRange : nconnections * bufferSize < unsignedModulus
  distinct : files.Nodup
  numbered : ∀ fd ∈ files, 0 ≤ fd

/-- A ring for one connection; besides the standard streams, its listening
socket and its own descriptor are open. -/
def Config.single (isRoot : Bool) : Config where
  nconnections := 1
  isRoot := isRoot
  ndebug := false
  listenFd := 3
  files := [0, 1, 2, 3, 4]
  positive := by decide
  inRange := by decide
  distinct := by decide
  numbered := by decide

/-- `main`: the capacity of one thread's ring. -/
def maxConnections : Nat := 2 ^ 15

def oneThreadConnections (threadsCount : Nat) : Nat := maxConnections / threadsCount

theorem oneThreadConnections_inRange (threadsCount : Nat) :
    oneThreadConnections threadsCount * bufferSize < unsignedModulus := by
  have bounded : oneThreadConnections threadsCount ≤ maxConnections := Nat.div_le_self _ _
  calc oneThreadConnections threadsCount * bufferSize
      ≤ maxConnections * bufferSize := Nat.mul_le_mul_right _ bounded
    _ < unsignedModulus := by decide

/-- A submission queue entry; an accept request carries no event. -/
structure Sqe where
  operation : Operation
  userData : Option EventId
  deriving DecidableEq

structure Cqe where
  userData : Option EventId
  res : Int
  deriving DecidableEq

/-- Bytes that crossed a socket of a session when a read or a write completed,
with what the session was doing at that moment. -/
structure Transfer where
  client : SessionId
  type : EventType
  state : State
  isFailed : Bool
  bytes : List Byte
  deriving DecidableEq

/-- Bytes the kernel has stored in the buffer of a read of a session. -/
structure Delivery where
  client : SessionId
  address : Nat
  bytes : List Byte
  deriving DecidableEq

structure Server where
  config : Config
  eventPool : EventPool
  bufferPool : BufferPool
  sessions : Heap Session
  /-- Submitted and not yet completed, oldest first. -/
  ring : List Sqe
  files : List Fd
  transfers : List Transfer
  deliveries : List Delivery
  /-- The bytes the kernel has moved so far for a session's read or write in flight: stored
  in its buffer, or taken from there. A session never has two requests of one kind in
  flight. -/
  underway : Event → List Byte

/-- The system's answers to the calls made while a completion is handled. -/
structure Answers where
  gethostbyname : List Byte → Hostent
  socket : SocketResult

namespace Call

/-- The switch on the event's type in the loop; a read of nothing means that
the peer has disconnected. -/
def dispatch (env : Env) (type : EventType) (res : Nat) (call : Call) : Except Fault Call :=
  match type with
  | .clientAccept => env.unreachable call
  | .clientRead => if res ≠ 0 then call.handleClientRead env res else call.failImmediately
  | .clientWrite => call.handleClientWrite env res
  | .destinationConnect => call.handleDestinationConnect env
  | .destinationRead =>
      if res ≠ 0 then .ok (call.handleDestinationRead env res) else call.failImmediately
  | .destinationWrite => call.handleDestinationWrite env res

/-- `--event->client->awaiting_events_count`. -/
def forgetEvent (call : Call) : Call :=
  call.update fun self =>
    { self with awaitingEventsCount := sizeDecrement self.awaitingEventsCount }

end Call

namespace Server

variable (server : Server)

def env (answers : Answers) : Env where
  isRoot := server.config.isRoot
  ndebug := server.config.ndebug
  gethostbyname := answers.gethostbyname
  socket := answers.socket

/-- `*reinterpret_cast<Event*>(cqe->user_data)`. -/
def event (id : EventId) : Except Fault Event :=
  orFault .uninitialised (server.eventPool.events id)

def session (client : SessionId) : Except Fault Session :=
  orFault .danglingSession (server.sessions.get? client)

def addClientAcceptRequest : Server :=
  { server with ring := server.ring ++ [⟨.accept server.config.listenFd, none⟩] }

/-- The common end of the other request builders: obtain an event, fill it in,
attach it to the entry and submit. -/
def submit (client : SessionId) (request : Request) : Except Fault Server := do
  let (id, eventPool) ← server.eventPool.obtainEvent ⟨client, request.type⟩
  return { server with eventPool, ring := server.ring ++ [⟨request.operation, some id⟩] }

def submitAll (client : SessionId) : List Request → Server → Except Fault Server
  | [], server => .ok server
  | request :: rest, server => do submitAll client rest (← server.submit client request)

/-- Call a method on a session: what it changed is stored back and what it
built is submitted. -/
def call (client : SessionId) (method : Call → Except Fault Call) : Except Fault Server := do
  let self ← server.session client
  let after ← method ⟨self, server.bufferPool.buffers, server.files, []⟩
  submitAll client after.submitted
    { server with
      sessions := server.sessions.set client after.self
      bufferPool := { server.bufferPool with buffers := after.buffers }
      files := after.files }

/-- `delete client`: the body of `~Session`, then its members' destructors. -/
def deleteSession (client : SessionId) : Except Fault Server := do
  let self ← server.session client
  let files ← self.closeFd server.files
  let bufferPool := server.bufferPool.returnBuffer self.bufferIndex
  let files ← destroySocket files self.destinationSocket
  return { server with files, bufferPool, sessions := server.sessions.delete client }

def returnEvent (id : EventId) : Server :=
  { server with eventPool := server.eventPool.returnEvent id }

def handleAccept (answers : Answers) (fd : Fd) : Except Fault Server := do
  let server := server.addClientAcceptRequest
  match server.bufferPool.obtainFreeBuffer with
  | none => do
      let files ← closeFile server.files fd
      return { server with files }
  | some (bufferIndex, bufferPool) =>
      let client := server.sessions.next
      let self : Session := { fd, bufferIndex, awaitingEventsCount := 1 }
      { server with bufferPool, sessions := server.sessions.create self }.call client fun call =>
        call.readSomeFromClient (server.env answers)
          (Call.handleClientRead (server.env answers)) 3

def handleSessionError (client : SessionId) : Except Fault Server := do
  let server ← server.call client fun call => .ok call.forgetEvent
  let self ← server.session client
  if self.awaitingEventsCount = 0 then server.deleteSession client
  else server.call client Call.failImmediately

def handleSessionCompletion (answers : Answers) (event : Event) (res : Nat) :
    Except Fault Server := do
  let server ← server.call event.client fun call => .ok call.forgetEvent
  let self ← server.session event.client
  if self.isFailed then
    if self.awaitingEventsCount = 0 then server.deleteSession event.client else .ok server
  else
    let server ← server.call event.client (Call.dispatch (server.env answers) event.type res)
    let self ← server.session event.client
    if self.isFailed ∧ self.awaitingEventsCount = 0 then server.deleteSession event.client
    else .ok server

/-- The body of the loop in `event_loop`. -/
def eventLoopBody (answers : Answers) (cqe : Cqe) : Except Fault Server :=
  match cqe.userData with
  | none => if cqe.res < 0 then .ok server else server.handleAccept answers cqe.res
  | some id => do
      let event ← server.event id
      let server ←
        if cqe.res < 0 then server.handleSessionError event.client
        else server.handleSessionCompletion answers event cqe.res.toNat
      return server.returnEvent id

/-! The kernel's part. -/

/-- The session and kind of request an entry in flight belongs to, as its event
tells it. -/
def owner (sqe : Sqe) : Option Event :=
  sqe.userData.bind server.eventPool.events

/-- The bytes moved so far for an entry in flight. -/
def underwayFor (sqe : Sqe) : List Byte :=
  match server.owner sqe with
  | none => []
  | some event => server.underway event

def setUnderway (sqe : Sqe) (bytes : List Byte) : Event → List Byte :=
  match server.owner sqe with
  | none => server.underway
  | some event => fun other => if other = event then bytes else server.underway other

/-- The next bytes a write in flight takes from its buffer. -/
def upcoming (sqe : Sqe) (buffer : Region) (length : Nat) : List Byte :=
  server.bufferPool.buffers.load (buffer.address + (server.underwayFor sqe).length) length

/-- The bytes an entry has moved when it completes with a result that is no error:
those a read stored, or those a write took from its buffer, the last of them now. -/
def moved (sqe : Sqe) (res : Nat) (data : List Byte) : List Byte :=
  match sqe.operation with
  | .read _ _ _ _ => data
  | .write _ buffer _ _ =>
      server.underwayFor sqe ++ server.upcoming sqe buffer (res - (server.underwayFor sqe).length)
  | .accept _ | .connect _ _ => []

def record (sqe : Sqe) (res : Nat) (data : List Byte) : List Transfer :=
  match server.owner sqe with
  | none => server.transfers
  | some event =>
      match server.sessions.get? event.client with
      | none => server.transfers
      | some self =>
          server.transfers ++
            [⟨event.client, event.type, self.state, self.isFailed, server.moved sqe res data⟩]

/-- The kernel stores `data` in the buffer of a read that is in flight, after what it has
stored for it before. -/
def deliver (sqe : Sqe) (buffer : Region) (data : List Byte) : Server :=
  let address := buffer.address + (server.underwayFor sqe).length
  { server with
    bufferPool := { server.bufferPool with
      buffers := server.bufferPool.buffers.store address data }
    deliveries :=
      match server.owner sqe with
      | none => server.deliveries
      | some event => server.deliveries ++ [⟨event.client, address, data⟩]
    underway := server.setUnderway sqe (server.underwayFor sqe ++ data) }

/-- The kernel takes `data` from the buffer of a write that is in flight. -/
def collect (sqe : Sqe) (data : List Byte) : Server :=
  { server with underway := server.setUnderway sqe (server.underwayFor sqe ++ data) }

/-- Take the entry out of flight. Of the `data` a successful read has brought, only what
had not been stored before is stored now; a successful accept has opened the descriptor it
returns. -/
def retire (index : Nat) (sqe : Sqe) (res : Int) (data : List Byte) : Server :=
  let retired := { server with
    ring := server.ring.eraseIdx index
    underway := server.setUnderway sqe [] }
  if res < 0 then retired
  else
    let retired := { retired with transfers := server.record sqe res.toNat data }
    match sqe.operation with
    | .accept _ => { retired with files := res :: server.files }
    | .read _ buffer _ _ =>
        let filled := server.deliver sqe buffer (data.drop (server.underwayFor sqe).length)
        { retired with bufferPool := filled.bufferPool, deliveries := filled.deliveries }
    | .write _ _ _ _ | .connect _ _ => retired

end Server

/-- One step of the system. Either the loop handles the completion of the entry
at `index`, or the kernel moves some or all bytes of a read or a write in flight, which may
be long before the loop handles its completion. -/
inductive Label where
  | complete (index : Nat) (res : Int) (data : List Byte) (answers : Answers)
  | carry (index : Nat) (data : List Byte)

/-- What a result can be, given the operation: any error, a new descriptor, no
more bytes than were asked for, or zero. -/
def Operation.Yields (files : List Fd) (res : Int) (data : List Byte) : Operation → Prop
  | .accept _ => res < 0 ∨ res ∉ files
  | .connect _ _ => res ≤ 0
  | .read _ buffer _ _ => res < 0 ∨ (res = data.length ∧ data.length ≤ buffer.length)
  | .write _ buffer _ _ => res ≤ buffer.length

instance (files : List Fd) (res : Int) (data : List Byte) (operation : Operation) :
    Decidable (operation.Yields files res data) := by
  cases operation <;> unfold Operation.Yields <;> infer_instance

/-- A read or a write completes with what was moved for it before, and perhaps more. -/
def Operation.Continues (underway : List Byte) (res : Int) (data : List Byte) : Operation → Prop
  | .read _ _ _ _ => underway <+: data
  | .write _ _ _ _ => underway.length ≤ res
  | .accept _ | .connect _ _ => True

instance (underway : List Byte) (res : Int) (data : List Byte) (operation : Operation) :
    Decidable (operation.Continues underway res data) := by
  cases operation <;> unfold Operation.Continues <;> infer_instance

/-- A socket the system opens has a number not in use. -/
def SocketResult.Fresh (files : List Fd) : SocketResult → Prop
  | .created fd => 0 ≤ fd ∧ fd ∉ files
  | .error _ | .otherException => True

instance (files : List Fd) (result : SocketResult) : Decidable (result.Fresh files) := by
  cases result <;> unfold SocketResult.Fresh <;> infer_instance

namespace Server

/-- The kernel may complete the entry at `index` in this way. -/
structure Completes (server : Server) (index : Nat) (sqe : Sqe) (res : Int)
    (data : List Byte) (answers : Answers) : Prop where
  inFlight : server.ring[index]? = some sqe
  yields : sqe.operation.Yields server.files res data
  fresh : answers.socket.Fresh server.files
  continues : res < 0 ∨ sqe.operation.Continues (server.underwayFor sqe) res data

/-- The iteration of the loop that handles the completion. -/
def iterate (server : Server) (index : Nat) (sqe : Sqe) (res : Int) (data : List Byte)
    (answers : Answers) : Except Fault Server :=
  (server.retire index sqe res data).eventLoopBody answers ⟨sqe.userData, res⟩

/-- A run ends where an iteration faults, so a step is an iteration that does not. -/
inductive Step : Server → Label → Server → Prop where
  | complete {server next : Server} {index : Nat} {sqe : Sqe} {res : Int} {data : List Byte}
      {answers : Answers} :
      server.Completes index sqe res data answers →
      server.iterate index sqe res data answers = .ok next →
      Step server (.complete index res data answers) next
  | fill {server : Server} {index : Nat} {sqe : Sqe} {fd : Fd} {buffer : Region} {offset : Nat}
      {bufferIndex : Option Nat} {data : List Byte} :
      server.ring[index]? = some sqe →
      sqe.operation = .read fd buffer offset bufferIndex →
      (server.underwayFor sqe).length + data.length ≤ buffer.length →
      Step server (.carry index data) (server.deliver sqe buffer data)
  | collect {server : Server} {index : Nat} {sqe : Sqe} {fd : Fd} {buffer : Region}
      {offset : Nat} {bufferIndex : Option Nat} {data : List Byte} :
      server.ring[index]? = some sqe →
      sqe.operation = .write fd buffer offset bufferIndex →
      (server.underwayFor sqe).length + data.length ≤ buffer.length →
      data = server.upcoming sqe buffer data.length →
      Step server (.carry index data) (server.collect sqe data)

/-- The iteration for a completion the kernel may deliver ends in a fault. -/
def Faults (server : Server) (label : Label) (fault : Fault) : Prop :=
  match label with
  | .complete index res data answers =>
      ∃ sqe, server.Completes index sqe res data answers ∧
        server.iterate index sqe res data answers = .error fault
  | .carry _ _ => False

end Server

/-- The state in which `event_loop` first waits: the pools are full and the
accept request is in flight. -/
def Server.start (config : Config) : Server :=
  Server.addClientAcceptRequest
    { config
      eventPool := EventPool.new config.nconnections
      bufferPool := BufferPool.new config.nconnections
      sessions := Heap.empty
      ring := []
      files := config.files
      transfers := []
      deliveries := []
      underway := fun _ => [] }

def eventLoop (config : Config) : Transition.System Server Label where
  start := fun server => server = Server.start config
  step := Server.Step

/-- An entry in flight with the event it carries and the session that names. -/
structure Concerned where
  sqe : Sqe
  event : Event
  session : Session

def Server.concerned (server : Server) (index : Nat) : Option Concerned := do
  let sqe ← server.ring[index]?
  let event ← server.owner sqe
  let session ← server.sessions.get? event.client
  return ⟨sqe, event, session⟩

/-- What a step under the label makes of the server; `none` where none fits or it faults. -/
def Server.attempt (server : Server) : Label → Option Server
  | .complete index res data answers =>
      match server.ring[index]? with
      | none => none
      | some sqe =>
          if sqe.operation.Yields server.files res data ∧ answers.socket.Fresh server.files ∧
              (res < 0 ∨ sqe.operation.Continues (server.underwayFor sqe) res data) then
            match server.iterate index sqe res data answers with
            | .ok next => some next
            | .error _ => none
          else none
  | .carry index data =>
      match server.ring[index]? with
      | some ⟨.read fd buffer offset bufferIndex, id⟩ =>
          let sqe : Sqe := ⟨.read fd buffer offset bufferIndex, id⟩
          if (server.underwayFor sqe).length + data.length ≤ buffer.length then
            some (server.deliver sqe buffer data)
          else none
      | some ⟨.write fd buffer offset bufferIndex, id⟩ =>
          let sqe : Sqe := ⟨.write fd buffer offset bufferIndex, id⟩
          if (server.underwayFor sqe).length + data.length ≤ buffer.length ∧
              data = server.upcoming sqe buffer data.length then
            some (server.collect sqe data)
          else none
      | _ => none

theorem Server.step_of_attempt {server next : Server} {label : Label}
    (attempted : server.attempt label = some next) : Step server label next := by
  unfold attempt at attempted
  split at attempted
  · split at attempted
    · cases attempted
    · next sqe inFlight =>
        split at attempted
        · next admitted =>
            obtain ⟨yields, fresh, continues⟩ := admitted
            split at attempted
            · next after iterated =>
                cases attempted
                exact .complete ⟨inFlight, yields, fresh, continues⟩ iterated
            · cases attempted
        · cases attempted
  · split at attempted
    · next inFlight =>
        simp only at attempted
        split at attempted
        · next bounded =>
            cases attempted
            exact .fill inFlight rfl bounded
        · cases attempted
    · next inFlight =>
        simp only at attempted
        split at attempted
        · next admitted =>
            cases attempted
            exact .collect inFlight rfl admitted.1 admitted.2
        · cases attempted
    · cases attempted

/-- Replay labels from a state; `none` where one is not permitted or cannot be taken. -/
def Server.replay (permits : Server → Label → Bool) : List Label → Server → Option Server
  | [], server => some server
  | label :: rest, server =>
      if permits server label then (server.attempt label).bind (replay permits rest) else none

/-- What replaying labels shows to an observer. -/
def Server.shown {Event : Type} (observe : Server → Label → Option Event) :
    List Label → Server → List Event
  | [], _ => []
  | label :: rest, server =>
      match server.attempt label with
      | some next => (observe server label).toList ++ shown observe rest next
      | none => []

open Transition in
/-- A replayed run is a run of the system whose steps are all permitted. -/
theorem Server.shows_of_replay {config : Config} {allowed : Server → Label → Prop}
    {Event : Type} {observe : Server → Label → Option Event} {permits : Server → Label → Bool}
    {labels : List Label} {server next : Server} {events : List Event}
    (sound : ∀ server, ∀ label ∈ labels, permits server label = true → allowed server label)
    (run : (eventLoop config).ShowsWhen allowed observe server events)
    (replayed : server.replay permits labels = some next) :
    (eventLoop config).ShowsWhen allowed observe next (events ++ server.shown observe labels) := by
  induction labels generalizing server events with
  | nil =>
      cases replayed
      rwa [shown, List.append_nil]
  | cons label rest ih =>
      unfold replay at replayed
      split at replayed
      · next permitted =>
          obtain ⟨after, attempted, further⟩ := Option.bind_eq_some_iff.mp replayed
          have allow := sound server label List.mem_cons_self permitted
          have later := ih (fun server later member =>
            sound server later (List.mem_cons_of_mem label member))
            (.step run allow (step_of_attempt attempted)) further
          simpa only [shown, attempted, List.append_assoc] using later
      · cases replayed

section Replays

open Transition

variable (config : Config) (labels : List Label) (permits : Server → Label → Bool)
  {allowed : Server → Label → Prop}

/-- A replay from the start shows that a state with some property is reached, and what the
run to it has shown. -/
theorem Server.exists_shows {Event : Type} (observe : Server → Label → Option Event)
    (property : Server → Bool)
    (sound : ∀ server, ∀ label ∈ labels, permits server label = true → allowed server label)
    (holds : ((Server.start config).replay permits labels).any property = true) :
    ∃ server, (eventLoop config).ShowsWhen allowed observe server
      ((Server.start config).shown observe labels) ∧ property server = true := by
  cases replayed : (Server.start config).replay permits labels with
  | none => simp [replayed] at holds
  | some server =>
      rw [replayed] at holds
      exact ⟨server, shows_of_replay sound (.start rfl) replayed, holds⟩

theorem Server.exists_reachable (property : Server → Bool)
    (sound : ∀ server, ∀ label ∈ labels, permits server label = true → allowed server label)
    (holds : ((Server.start config).replay permits labels).any property = true) :
    ∃ server, (eventLoop config).ReachableWhen allowed server ∧ property server = true := by
  obtain ⟨server, run, same⟩ :=
    exists_shows config labels permits (fun _ label => some label) property sound holds
  exact ⟨server, run.reachable, same⟩

end Replays

open Transition in
theorem Server.exists_step (config : Config) (labels : List Label) (label : Label)
    (permits : Server → Label → Bool) (property : Server → Server → Bool)
    {allowed : Server → Label → Prop}
    (sound : ∀ server, ∀ label ∈ labels, permits server label = true → allowed server label)
    (holds : ((Server.start config).replay permits labels).any (fun server =>
      (server.attempt label).any (property server)) = true) :
    ∃ server next, (eventLoop config).ReachableWhen allowed server ∧ Step server label next ∧
      property server next = true := by
  obtain ⟨server, reached, further⟩ := exists_reachable config labels permits _ sound holds
  cases attempted : server.attempt label with
  | none => simp [attempted] at further
  | some next =>
      rw [attempted] at further
      exact ⟨server, next, reached, step_of_attempt attempted, further⟩

/-- Answers for steps that ask the system for nothing. -/
def Answers.none : Answers where
  gethostbyname := fun _ => .failure
  socket := .otherException

/-- A connection is taken, greets, and asks for port 80 of the local host; the
destination is connected to and the client told so, after which relaying begins
with a read of either side in flight. -/
def Label.relaying : List Label :=
  [.complete 0 5 [] .none,
    .complete 1 3 [5, 1, 0] .none,
    .complete 1 2 [] .none,
    .complete 1 10 [5, 1, 0, 1, 127, 0, 0, 1, 0, 80] ⟨fun _ => .failure, .created 6⟩,
    .complete 1 0 [] .none,
    .complete 1 10 [] .none]

end ModernCppHw.Socks5
