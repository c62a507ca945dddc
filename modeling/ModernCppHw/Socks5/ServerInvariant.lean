import ModernCppHw.Socks5.Iteration

/-! The law of the server's states, and what one step can do to a state that
obeys it: move part of a read or a write, take or refuse a connection, fail to accept
one, or serve a session for one of its completions. -/

set_option autoImplicit false

namespace ModernCppHw.Socks5

/-- These bytes are where the request's buffer begins. -/
def Request.Finds (request : Request) (buffers : Memory Byte) (bytes : List Byte) : Prop :=
  buffers.load request.operation.region.address bytes.length = bytes

/-- A session just accepted, waiting for the start of the greeting. -/
def Session.accepted (fd : Fd) (bufferIndex : Nat) : Session where
  fd := fd
  bufferIndex := bufferIndex
  awaitingEventsCount := 2
  isReadCompleted := .atLeast 3

namespace Server

/-- The pools are accounted for, and each live session has exactly the
requests in flight its state calls for. Bytes are underway for requests in flight only,
and during the handshake those stored or taken stay in memory. -/
structure WellFormed (server : Server) : Prop where
  events : server.EventsSound []
  accepting : ∀ sqe ∈ server.ring, sqe.userData = none →
    sqe.operation = .accept server.config.listenFd
  buffers : FreeQueue.Accounts server.config.nconnections server.bufferPool.freeBuffers
    (server.sessions.values.map (·.bufferIndex))
  consistent : ∀ client self, server.sessions.get? client = some self →
    self.Consistent server.config.isRoot (server.requestsOf client)
  live : ∀ client, server.sessions.get? client = none → server.requestsOf client = []
  distinct : server.files.Nodup
  numbered : ∀ fd ∈ server.files, 0 ≤ fd
  transferred : ∀ transfer ∈ server.transfers, transfer.client < server.sessions.next
  delivered : ∀ delivery ∈ server.deliveries, delivery.client < server.sessions.next
  brought : ∀ event, server.underway event ≠ [] → ∃ request ∈ server.requestsOf event.client,
    request.type = event.type ∧
      (server.underway event).length ≤ request.operation.region.length
  intact : ∀ client self, server.sessions.get? client = some self →
    self.state ≠ .proxyingRequests → ∀ request ∈ server.requestsOf client,
      request.Finds server.bufferPool.buffers (server.underway ⟨client, request.type⟩)

/-- The completed entry is a request of a live session, which reacts to it. -/
structure Concerns (server : Server) (index : Nat) (sqe : Sqe) (res : Int) (data : List Byte)
    (answers : Answers) (event : Event) (session : Session) (rest : List Request) : Prop where
  completes : server.Completes index sqe res data answers
  owned : server.owner sqe = some event
  live : server.sessions.get? event.client = some session
  consistent : session.Consistent server.config.isRoot (server.requestsOf event.client)
  split : (server.requestsOf event.client).Perm (⟨event.type, sqe.operation⟩ :: rest)
  remaining : (server.retire index sqe res data).requestsOf event.client = rest
  bounded : res ≤ sqe.operation.region.length
  intact : session.state ≠ .proxyingRequests → (⟨event.type, sqe.operation⟩ : Request).Finds
    server.bufferPool.buffers (server.underway event)
  reacts : Reacts (server.env answers) ((server.retire index sqe res data).callOn session) res
    ⟨event.type, sqe.operation⟩ rest
    (Call.react (server.env answers) event.type res
      ((server.retire index sqe res data).callOn session))

/-- The loop has served the session of a completed entry: the session reacted,
and the server took over what the reaction left. -/
structure Serves (server : Server) (index : Nat) (sqe : Sqe) (res : Int) (data : List Byte)
    (answers : Answers) (event : Event) (session : Session) (rest : List Request) (after : Call)
    (deleted : Bool) (next : Server) : Prop
    extends server.Concerns index sqe res data answers event session rest where
  returned : Call.react (server.env answers) event.type res
    ((server.retire index sqe res data).callOn session) = .ok (after, deleted)
  config : next.config = server.config
  memory : next.bufferPool.buffers = after.buffers
  transfers : next.transfers = (server.retire index sqe res data).transfers
  deliveries : next.deliveries = (server.retire index sqe res data).deliveries
  underway : next.underway = server.setUnderway sqe []
  events : next.EventsSound []
  accepts : next.acceptsInFlight = server.acceptsInFlight
  accepting : ∀ entry ∈ next.ring, entry.userData = none → entry ∈ server.ring
  own : next.requestsOf event.client = rest ++ after.submitted
  others : ∀ other, other ≠ event.client →
    (next.requestsOf other).Perm (server.requestsOf other)
  kept : deleted = false → next.sessions = server.sessions.set event.client after.self ∧
    next.bufferPool.freeBuffers = server.bufferPool.freeBuffers ∧ next.files = after.files
  removed : deleted = true → next.sessions = server.sessions.delete event.client ∧
    next.bufferPool.freeBuffers = server.bufferPool.freeBuffers ++ [session.bufferIndex] ∧
    next.files.Sublist after.files ∧ (after.files.Nodup → session.fd ≠ -1 → session.fd ∉ next.files)

/-- What a step can do. -/
inductive Moves (server : Server) : Label → Server → Prop where
  | filled {index : Nat} {sqe : Sqe} {event : Event} {self : Session} {fd : Fd} {buffer : Region}
      {offset : Nat} {bufferIndex : Option Nat} {data : List Byte} :
      server.ring[index]? = some sqe → server.owner sqe = some event →
      server.sessions.get? event.client = some self →
      sqe.operation = .read fd buffer offset bufferIndex →
      (server.underwayFor sqe).length + data.length ≤ buffer.length →
      Moves server (.carry index data) (server.deliver sqe buffer data)
  | collected {index : Nat} {sqe : Sqe} {event : Event} {self : Session} {fd : Fd}
      {buffer : Region} {offset : Nat} {bufferIndex : Option Nat} {data : List Byte} :
      server.ring[index]? = some sqe → server.owner sqe = some event →
      server.sessions.get? event.client = some self →
      sqe.operation = .write fd buffer offset bufferIndex →
      (server.underwayFor sqe).length + data.length ≤ buffer.length →
      data = server.upcoming sqe buffer data.length →
      Moves server (.carry index data) (server.collect sqe data)
  | acceptFailed {index : Nat} {sqe : Sqe} {res : Int} {data : List Byte} {answers : Answers} :
      server.Completes index sqe res data answers → sqe.userData = none → res < 0 →
      Moves server (.complete index res data answers) (server.retire index sqe res data)
  | acceptRefused {index : Nat} {sqe : Sqe} {res : Int} {data : List Byte} {answers : Answers} :
      server.Completes index sqe res data answers → sqe.userData = none → 0 ≤ res →
      server.bufferPool.freeBuffers = [] →
      Moves server (.complete index res data answers)
        { (server.retire index sqe res data).addClientAcceptRequest with files := server.files }
  | accepted {index : Nat} {sqe : Sqe} {res : Int} {data : List Byte} {answers : Answers}
      {bufferIndex : Nat} {freeBuffers : List Nat} {eventPool : EventPool} {ring : List Sqe}
      {next : Server} :
      server.Completes index sqe res data answers → sqe.userData = none → 0 ≤ res →
      server.bufferPool.freeBuffers = bufferIndex :: freeBuffers →
      next = { server with
        eventPool, ring, files := res :: server.files
        bufferPool := { server.bufferPool with freeBuffers }
        sessions := server.sessions.create (Session.accepted res bufferIndex) } →
      next.EventsSound [] → next.acceptsInFlight = server.acceptsInFlight →
      (∀ entry ∈ ring, entry.userData = none → entry ∈ server.ring ∨
        entry.operation = .accept server.config.listenFd) →
      (∀ other, (next.requestsOf other).Perm (server.requestsOf other ++
        if server.sessions.next = other then
          [(Session.accepted res bufferIndex).clientReadRequest server.config.isRoot] else [])) →
      Moves server (.complete index res data answers) next
  | served {index : Nat} {sqe : Sqe} {res : Int} {data : List Byte} {answers : Answers}
      {event : Event} {self : Session} {rest : List Request} {after : Call} {deleted : Bool}
      {next : Server} :
      server.Serves index sqe res data answers event self rest after deleted next →
      Moves server (.complete index res data answers) next

variable {server next : Server} {client : SessionId} {index : Nat} {sqe : Sqe} {res : Int}
  {data : List Byte} {answers : Answers} {id : EventId} {event : Event} {self : Session}
  {after : Call} {held : List EventId}

section Serves

variable {found : Session} {rest : List Request} {deleted : Bool}

theorem Serves.get?_other
    (serves : server.Serves index sqe res data answers event self rest after deleted next)
    (different : client ≠ event.client) :
    next.sessions.get? client = server.sessions.get? client := by
  cases deleted with
  | true => rw [(serves.removed rfl).1, Heap.get?_delete_of_ne different]
  | false => rw [(serves.kept rfl).1, Heap.get?_set_of_ne different]

theorem Serves.get?_kept
    (serves : server.Serves index sqe res data answers event self rest after false next) :
    next.sessions.get? event.client = some after.self := by
  rw [(serves.kept rfl).1, Heap.get?_set_self serves.live]

theorem Serves.get?_removed
    (serves : server.Serves index sqe res data answers event self rest after true next) :
    next.sessions.get? event.client = none := by
  rw [(serves.removed rfl).1, Heap.get?_delete_self]

/-- The served session, if it is still there, is what the reaction left. -/
theorem Serves.get?_own
    (serves : server.Serves index sqe res data answers event self rest after deleted next)
    (live : next.sessions.get? event.client = some found) :
    deleted = false ∧ found = after.self := by
  cases deleted with
  | true =>
      rw [serves.get?_removed] at live
      cases live
  | false =>
      rw [serves.get?_kept] at live
      cases live
      exact ⟨rfl, rfl⟩

theorem Serves.next_sessions
    (serves : server.Serves index sqe res data answers event self rest after deleted next) :
    next.sessions.next = server.sessions.next := by
  cases deleted with
  | true => rw [(serves.removed rfl).1, Heap.next_delete]
  | false => rw [(serves.kept rfl).1, Heap.next_set]

end Serves

theorem returnEvent_sound (sound : server.EventsSound (id :: held)) :
    (server.returnEvent id).EventsSound held where
  accounts := sound.accounts.giveBack
  assigned := sound.assigned

theorem returnEvent_requestsOf (client : SessionId) :
    (server.returnEvent id).requestsOf client = server.requestsOf client := rfl

/-- A live session has at most two requests in flight, so at least half of the
events are free. -/
theorem WellFormed.free_events (wellFormed : server.WellFormed) :
    2 * server.config.nconnections ≤ server.eventPool.freeEvents.length ∧
      server.eventsInFlight.length ≤ 2 * server.sessions.values.length := by
  have fewSessions : server.sessions.values.length ≤ server.config.nconnections := by
    have counted := wellFormed.buffers.length
    simp only [List.length_map] at counted
    omega
  have inFlight : server.eventsInFlight.length ≤ server.sessions.identities.length * 2 := by
    refine wellFormed.events.eventsInFlight_le (fun client some => ?_) fun client => ?_
    · refine Heap.mem_identities.mpr (Option.ne_none_iff_exists'.mp fun absent => ?_)
      exact some (wellFormed.live client absent)
    · cases found : server.sessions.get? client with
      | none => simp [wellFormed.live client found]
      | some self => exact (wellFormed.consistent client self found).length_le
  have accounted := wellFormed.events.accounts.length
  rw [Heap.identities_length] at inFlight
  simp only [List.nil_append] at accounted
  constructor <;> omega

theorem WellFormed.owned (wellFormed : server.WellFormed)
    (inFlight : sqe ∈ server.ring) (carried : sqe.userData = some id) :
    ∃ event self, server.owner sqe = some event ∧ server.eventPool.events id = some event ∧
      server.sessions.get? event.client = some self := by
  obtain ⟨event, filled⟩ := wellFormed.events.assigned sqe inFlight id carried
  have owned : server.owner sqe = some event := by simp [owner, carried, filled]
  have present : server.sessions.get? event.client ≠ none := by
    intro absent
    have member : (⟨event.type, sqe.operation⟩ : Request) ∈ server.requestsOf event.client :=
      mem_requestsOf.mpr ⟨sqe, inFlight, event, owned, rfl, rfl⟩
    rw [wellFormed.live _ absent] at member
    cases member
  obtain ⟨self, found⟩ := Option.ne_none_iff_exists'.mp present
  exact ⟨event, self, owned, filled, found⟩

theorem WellFormed.owned_of_operation (wellFormed : server.WellFormed)
    (inRing : sqe ∈ server.ring) (other : sqe.operation ≠ .accept server.config.listenFd) :
    ∃ event self, server.owner sqe = some event ∧
      server.sessions.get? event.client = some self := by
  cases carried : sqe.userData with
  | none => exact absurd (wellFormed.accepting sqe inRing carried) other
  | some id =>
      obtain ⟨event, self, owned, -, live⟩ := wellFormed.owned inRing carried
      exact ⟨event, self, owned, live⟩

/-- Deleting a session closes its connection, frees its buffer and touches
nothing else. -/
theorem deleteSession_ok (live : server.sessions.get? client = some self)
    (removed : server.deleteSession client = .ok next) :
    ∃ files, next = { server with
        files
        bufferPool := server.bufferPool.returnBuffer self.bufferIndex
        sessions := server.sessions.delete client } ∧
      files.Sublist server.files ∧
      (server.files.Nodup → self.fd ≠ -1 → self.fd ∉ files) := by
  simp only [deleteSession, session, live, orFault, bind, Except.bind] at removed
  cases closed : self.closeFd server.files with
  | error fault => simp [closed] at removed
  | ok remaining =>
      simp only [closed] at removed
      obtain ⟨first, unnamed⟩ := closeFd_ok closed
      cases destroyed : destroySocket remaining self.destinationSocket with
      | error fault => simp [destroyed] at removed
      | ok files =>
          simp only [destroyed, pure, Except.pure, Except.ok.injEq] at removed
          have last : files.Sublist remaining := destroySocket_ok destroyed
          exact ⟨files, removed.symm, last.trans first, fun distinct named member =>
            unnamed distinct named (last.subset member)⟩

theorem deleteSession_error {fault : Fault} (live : server.sessions.get? client = some self)
    (failed : server.deleteSession client = .error fault) : fault = .closeFailed := by
  simp only [deleteSession, session, live, orFault, bind, Except.bind] at failed
  cases closed : self.closeFd server.files with
  | error other =>
      simp only [closed, Except.error.injEq] at failed
      exact failed ▸ Session.closeFd_error closed
  | ok remaining =>
      simp only [closed] at failed
      cases destroyed : destroySocket remaining self.destinationSocket with
      | error other =>
          simp only [destroyed, Except.error.injEq] at failed
          exact failed ▸ destroySocket_error destroyed
      | ok files =>
          rw [destroyed] at failed
          cases failed

/-- A completed entry that carries an event concerns the session the event
names, and the iteration is that session's reaction, settled. -/
theorem WellFormed.concerns (wellFormed : server.WellFormed)
    (completes : server.Completes index sqe res data answers) (carried : sqe.userData = some id) :
    ∃ event self rest, server.Concerns index sqe res data answers event self rest ∧
      server.iterate index sqe res data answers = (do
        let reaction ← Call.react (server.env answers) event.type res
          ((server.retire index sqe res data).callOn self)
        (server.retire index sqe res data).settle event.client id reaction) := by
  have inRing : sqe ∈ server.ring := List.mem_of_getElem? completes.inFlight
  obtain ⟨event, self, owned, filled, live⟩ := wellFormed.owned inRing carried
  have consistent := wellFormed.consistent _ _ live
  have split : (server.requestsOf event.client).Perm (⟨event.type, sqe.operation⟩ ::
      (server.retire index sqe res data).requestsOf event.client) := by
    have retired := requestsOf_retire completes.inFlight res data event.client
    rwa [requestOf_self owned] at retired
  have member : (⟨event.type, sqe.operation⟩ : Request) ∈ server.requestsOf event.client :=
    mem_requestsOf.mpr ⟨sqe, inRing, event, owned, rfl, rfl⟩
  have bounded : res ≤ sqe.operation.region.length := by
    have yields := completes.yields
    have notAccept := (consistent.confined member).accepts
    cases operation : sqe.operation with
    | accept fd => exact absurd operation (notAccept fd)
    | connect fd address =>
        rw [operation] at yields
        exact yields
    | read fd buffer offset bufferIndex =>
        rw [operation] at yields
        simp only [Operation.region]
        rcases yields with failing | ⟨rfl, fits⟩
        · omega
        · exact Int.ofNat_le.mpr fits
    | write fd buffer offset bufferIndex =>
        rw [operation] at yields
        exact yields
  refine ⟨event, self, _, ⟨completes, owned, live, consistent, split, rfl, bounded,
    fun early => wellFormed.intact _ _ live early _ member, ?_⟩, ?_⟩
  · exact Call.reacts consistent split bounded
  · have filledStill : (server.retire index sqe res data).eventPool.events id = some event := by
      rw [retire_eventPool]
      exact filled
    have liveStill : (server.retire index sqe res data).sessions.get? event.client = some self := by
      rw [retire_sessions]
      exact live
    have sameEnv : (server.retire index sqe res data).env answers = server.env answers := by
      simp only [env, retire_config]
    rw [iterate, carried, eventLoopBody_eq filledStill liveStill, sameEnv]

theorem settle_kept (sound : server.EventsSound [id])
    (enough : after.submitted.length ≤ server.eventPool.freeEvents.length) (client : SessionId) :
    ∃ submitted, (server.commit client after).Submits [id] client after.submitted submitted ∧
      server.settle client id (after, false) = .ok (submitted.returnEvent id) := by
  have committed : (server.commit client after).EventsSound [id] :=
    ⟨sound.accounts, sound.assigned⟩
  obtain ⟨submitted, submits⟩ := submitAll_sound after.submitted client _ committed enough
  refine ⟨submitted, submits, ?_⟩
  simp only [settle, submits.returned]
  rfl

theorem settle_deleted (live : server.sessions.get? client = some self)
    (silent : after.submitted = []) (settled : server.settle client id (after, true) = .ok next) :
    ∃ files, next = ({ server.commit client after with
        files
        bufferPool := (server.commit client after).bufferPool.returnBuffer after.self.bufferIndex
        sessions := server.sessions.delete client } : Server).returnEvent id ∧
      files.Sublist after.files ∧
        (after.files.Nodup → after.self.fd ≠ -1 → after.self.fd ∉ files) := by
  simp only [settle, silent, submitAll, bind, Except.bind] at settled
  cases removed : (server.commit client after).deleteSession client with
  | error fault => simp [removed] at settled
  | ok remaining =>
      simp only [removed, pure, Except.pure, if_true, Except.ok.injEq] at settled
      have stored : (server.commit client after).sessions.get? client = some after.self :=
        Heap.get?_set_self live
      obtain ⟨files, rfl, closed⟩ := deleteSession_ok stored removed
      refine ⟨files, ?_, closed⟩
      rw [← settled]
      simp only [commit, Heap.delete_set]

theorem settle_deleted_error {fault : Fault} (live : server.sessions.get? client = some self)
    (silent : after.submitted = [])
    (settled : server.settle client id (after, true) = .error fault) : fault = .closeFailed := by
  simp only [settle, silent, submitAll, bind, Except.bind] at settled
  cases removed : (server.commit client after).deleteSession client with
  | error other =>
      simp only [removed, if_true, Except.error.injEq] at settled
      have stored : (server.commit client after).sessions.get? client = some after.self :=
        Heap.get?_set_self live
      exact settled ▸ deleteSession_error stored removed
  | ok remaining => simp [removed, pure, Except.pure] at settled

/-- What a reaction left is taken over, unless a descriptor of the session that
is to be deleted cannot be closed. -/
theorem Concerns.settles {rest : List Request} {deleted : Bool} (wellFormed : server.WellFormed)
    (carried : sqe.userData = some id)
    (concerns : server.Concerns index sqe res data answers event self rest)
    (reacted : Call.react (server.env answers) event.type res
      ((server.retire index sqe res data).callOn self) = .ok (after, deleted)) :
    (∃ next, (server.retire index sqe res data).settle event.client id (after, deleted) = .ok next ∧
      server.Serves index sqe res data answers event self rest after deleted next) ∨
      (server.retire index sqe res data).settle event.client id (after, deleted) =
        .error .closeFailed := by
  have completes := concerns.completes
  have reacts := concerns.reacts
  rw [reacted] at reacts
  have sound : (server.retire index sqe res data).EventsSound [id] := by
    have retired := wellFormed.events.retire completes.inFlight res data
    rwa [carried] at retired
  have liveStill : (server.retire index sqe res data).sessions.get? event.client = some self := by
    rw [retire_sessions]
    exact concerns.live
  have others : ∀ other, other ≠ event.client → (server.requestsOf other).Perm
      ((server.retire index sqe res data).requestsOf other) := by
    intro other different
    have split := requestsOf_retire completes.inFlight res data other
    rwa [requestOf_of_ne concerns.owned different] at split
  have accepts : server.acceptsInFlight =
      (server.retire index sqe res data).acceptsInFlight := by
    have counted := acceptsInFlight_retire completes.inFlight res data
    simpa [carried] using counted
  have inRing : ∀ entry ∈ (server.retire index sqe res data).ring, entry ∈ server.ring := by
    intro entry member
    rw [retire_ring] at member
    exact List.mem_of_mem_eraseIdx member
  cases deleted with
  | false =>
      have few : after.submitted.length ≤
          (server.retire index sqe res data).eventPool.freeEvents.length := by
        have consistent := (reacts.consistent rfl).length_le
        have free := wellFormed.free_events.1
        have positive := server.config.positive
        rw [List.length_append] at consistent
        rw [retire_eventPool]
        omega
      obtain ⟨submitted, submits, returned⟩ := settle_kept sound few event.client
      refine .inl ⟨_, returned, ?_⟩
      exact
        { toConcerns := concerns
          returned := reacted
          config := submits.config.trans (retire_config server index sqe res data)
          memory := congrArg BufferPool.buffers submits.bufferPool
          transfers := submits.transfers
          deliveries := submits.deliveries
          underway := submits.underway.trans (retire_underway server index sqe res data)
          events := returnEvent_sound submits.sound
          accepts := submits.accepts.trans accepts.symm
          accepting := fun entry member unowned =>
            inRing entry (submits.accepting entry member unowned)
          own := by
            rw [returnEvent_requestsOf, submits.added, if_pos rfl]
            exact congrArg (· ++ after.submitted) concerns.remaining
          others := fun other different => by
            rw [returnEvent_requestsOf, submits.added, if_neg different.symm, List.append_nil]
            exact (others other different).symm
          kept := fun _ => by
            refine ⟨submits.sessions.trans ?_, ?_, submits.files⟩
            · simp only [commit, retire_sessions]
            · exact (congrArg BufferPool.freeBuffers submits.bufferPool).trans
                (retire_freeBuffers server index sqe res data)
          removed := fun gone => absurd gone Bool.false_ne_true }
  | true =>
      obtain ⟨alone, same, -⟩ := reacts.of_deleted
      have silent : after.submitted = [] := by
        rw [same]
        rfl
      have unchanged : after.self.fd = self.fd ∧ after.self.bufferIndex = self.bufferIndex := by
        rw [same]
        exact ⟨rfl, rfl⟩
      cases settled : (server.retire index sqe res data).settle event.client id (after, true) with
      | error fault => exact .inr (settle_deleted_error liveStill silent settled ▸ rfl)
      | ok next =>
          obtain ⟨files, rfl, closed⟩ := settle_deleted liveStill silent settled
          refine .inl ⟨_, rfl, ?_⟩
          exact
            { toConcerns := concerns
              returned := reacted
              config := retire_config server index sqe res data
              memory := rfl
              transfers := rfl
              deliveries := rfl
              underway := retire_underway server index sqe res data
              events := returnEvent_sound ⟨sound.accounts, sound.assigned⟩
              accepts := accepts.symm
              accepting := fun entry member _ => inRing entry member
              own := by
                rw [silent, List.append_nil]
                exact concerns.remaining
              others := fun other different => (others other different).symm
              kept := fun still => absurd still.symm Bool.false_ne_true
              removed := fun _ => by
                refine ⟨?_, ?_, closed.1, fun distinct named => ?_⟩
                · simp only [returnEvent, retire_sessions]
                · simp only [returnEvent, BufferPool.returnBuffer, commit, retire_freeBuffers,
                    unchanged.2]
                · have gone := closed.2 distinct
                  rw [unchanged.1] at gone
                  exact gone named }

theorem WellFormed.served (wellFormed : server.WellFormed)
    (completes : server.Completes index sqe res data answers) (carried : sqe.userData = some id)
    (iterated : server.iterate index sqe res data answers = .ok next) :
    ∃ event self rest after deleted,
      server.Serves index sqe res data answers event self rest after deleted next := by
  obtain ⟨event, self, rest, concerns, settled⟩ := wellFormed.concerns completes carried
  rw [settled] at iterated
  cases reacted : Call.react (server.env answers) event.type res
      ((server.retire index sqe res data).callOn self) with
  | error fault => simp [reacted, bind, Except.bind] at iterated
  | ok reaction =>
      simp only [reacted, bind, Except.bind] at iterated
      rcases concerns.settles wellFormed carried reacted with ⟨reached, returned, serves⟩ | failed
      · rw [returned] at iterated
        cases iterated
        exact ⟨event, self, rest, _, _, serves⟩
      · rw [failed] at iterated
        cases iterated

/-! Accepting a connection. -/

theorem retire_accept (operation : sqe.operation = .accept server.config.listenFd)
    (unowned : sqe.userData = none) (succeeded : 0 ≤ res) :
    server.retire index sqe res data =
      { server with ring := server.ring.eraseIdx index, files := res :: server.files } := by
  have nobody : server.owner sqe = none := by simp [owner, unowned]
  simp [retire, Int.not_lt.mpr succeeded, operation, record, nobody, setUnderway_of_unowned unowned]

theorem readSomeFromClient_of_new (env : Env) (handleClientRead : Nat → Call → Except Fault Call)
    {call : Call} {fd : Fd} {bufferIndex : Nat}
    (new : call.self = { fd, bufferIndex, awaitingEventsCount := 1 }) :
    call.readSomeFromClient env handleClientRead 3 = .ok { call with
      self := Session.accepted fd bufferIndex
      submitted := call.submitted ++
        [(Session.accepted fd bufferIndex).clientReadRequest env.isRoot] } := by
  obtain ⟨self, buffers, files, submitted⟩ := call
  cases new
  rfl

theorem addClientAcceptRequest_requestsOf (other : SessionId) :
    server.addClientAcceptRequest.requestsOf other = server.requestsOf other := by
  have same : server.addClientAcceptRequest.requestOf other = server.requestOf other := rfl
  rw [requestsOf, same, addClientAcceptRequest]
  simp [requestsOf, requestOf_of_accept]

theorem addClientAcceptRequest_sound (sound : server.EventsSound held) :
    server.addClientAcceptRequest.EventsSound held where
  accounts := by
    have same : server.addClientAcceptRequest.eventsInFlight = server.eventsInFlight := by
      simp [eventsInFlight, addClientAcceptRequest]
    rw [same]
    exact sound.accounts
  assigned := by
    intro entry member id carried
    rcases List.mem_append.mp member with earlier | new
    · exact sound.assigned entry earlier id carried
    · cases List.mem_singleton.mp new
      cases carried

/-- An accept that completes with a descriptor is renewed; the connection is
taken if a buffer is free and closed otherwise. -/
theorem WellFormed.accepts (wellFormed : server.WellFormed)
    (completes : server.Completes index sqe res data answers) (unowned : sqe.userData = none)
    (succeeded : 0 ≤ res) :
    ∃ next, server.iterate index sqe res data answers = .ok next ∧
      Moves server (.complete index res data answers) next := by
  have inRing : sqe ∈ server.ring := List.mem_of_getElem? completes.inFlight
  have retired : server.retire index sqe res data =
      { server with ring := server.ring.eraseIdx index, files := res :: server.files } :=
    retire_accept (wellFormed.accepting sqe inRing unowned) unowned succeeded
  have handled : server.iterate index sqe res data answers =
      (server.retire index sqe res data).handleAccept answers res := by
    simp only [iterate, eventLoopBody, unowned, if_neg (Int.not_lt.mpr succeeded)]
  rw [handled]
  cases free : server.bufferPool.freeBuffers with
  | nil =>
      have refused : (server.retire index sqe res data).handleAccept answers res =
          .ok { (server.retire index sqe res data).addClientAcceptRequest with
            files := server.files } := by
        simp [handleAccept, addClientAcceptRequest, retired, BufferPool.obtainFreeBuffer, free,
          closeFile, bind, Except.bind, pure, Except.pure]
      exact ⟨_, refused, .acceptRefused completes unowned succeeded free⟩
  | cons bufferIndex freeBuffers =>
      let armed := (server.retire index sqe res data).addClientAcceptRequest
      let new : Session := { fd := res, bufferIndex, awaitingEventsCount := 1 }
      let opened : Server :=
        { armed with
          bufferPool := { armed.bufferPool with freeBuffers }
          sessions := armed.sessions.create new }
      let taken : Call := { opened.callOn new with
        self := Session.accepted res bufferIndex
        submitted := [(Session.accepted res bufferIndex).clientReadRequest server.config.isRoot] }
      have greeted : (opened.callOn new).readSomeFromClient (armed.env answers)
          (Call.handleClientRead (armed.env answers)) 3 = .ok taken := by
        have sameMode : (armed.env answers).isRoot = server.config.isRoot :=
          congrArg Config.isRoot (retire_config server index sqe res data)
        have waiting : (opened.callOn new).readSomeFromClient (armed.env answers)
            (Call.handleClientRead (armed.env answers)) 3 = .ok _ :=
          readSomeFromClient_of_new _ _ rfl
        rw [waiting, sameMode]
        rfl
      have sound : (opened.commit armed.sessions.next taken).EventsSound [] := by
        have kept := wellFormed.events.retire completes.inFlight res data
        rw [unowned] at kept
        have armedSound := addClientAcceptRequest_sound kept
        exact ⟨armedSound.accounts, armedSound.assigned⟩
      have enough : taken.submitted.length ≤
          (opened.commit armed.sessions.next taken).eventPool.freeEvents.length := by
        have available := wellFormed.free_events.1
        have positive := server.config.positive
        have same : (opened.commit armed.sessions.next taken).eventPool.freeEvents =
            server.eventPool.freeEvents :=
          congrArg EventPool.freeEvents (retire_eventPool server index sqe res data)
        rw [same]
        simp only [taken, List.length_singleton]
        omega
      obtain ⟨next, submits⟩ := submitAll_sound taken.submitted armed.sessions.next _ sound enough
      have reached : (server.retire index sqe res data).handleAccept answers res = .ok next := by
        have live : opened.sessions.get? armed.sessions.next = some new := Heap.get?_create_self
        have called := call_eq live fun call =>
          call.readSomeFromClient (armed.env answers) (Call.handleClientRead (armed.env answers)) 3
        rw [greeted] at called
        have obtained : armed.bufferPool.obtainFreeBuffer =
            some (bufferIndex, { armed.bufferPool with freeBuffers }) := by
          simp [BufferPool.obtainFreeBuffer, armed, addClientAcceptRequest, free]
        simp only [handleAccept]
        rw [obtained]
        exact called.trans submits.returned
      have requests : ∀ other, (next.requestsOf other).Perm (server.requestsOf other ++
          if server.sessions.next = other then taken.submitted else []) := by
        intro other
        have split := requestsOf_retire completes.inFlight res data other
        rw [requestOf_of_accept unowned] at split
        have same : (opened.commit armed.sessions.next taken).requestsOf other =
            (server.retire index sqe res data).requestsOf other := by
          change armed.requestsOf other = _
          exact addClientAcceptRequest_requestsOf other
        have identity : armed.sessions.next = server.sessions.next :=
          congrArg Heap.next (retire_sessions server index sqe res data)
        rw [submits.added, same, identity]
        exact List.Perm.append_right _ split.symm
      have frame : next = { server with
          eventPool := next.eventPool
          ring := next.ring
          files := res :: server.files
          bufferPool := { server.bufferPool with freeBuffers }
          sessions := server.sessions.create (Session.accepted res bufferIndex) } := by
        have frame := submits.frame
        simp only [commit, opened, armed, addClientAcceptRequest, retired, Heap.set_create, taken,
          callOn] at frame
        exact frame
      refine ⟨next, reached, .accepted completes unowned succeeded free frame submits.sound ?_ ?_
        requests⟩
      · have counted := acceptsInFlight_retire completes.inFlight res data
        rw [submits.accepts, counted]
        simp [acceptsInFlight, commit, opened, armed, addClientAcceptRequest, unowned,
          List.countP_append]
      · intro entry member carriesNone
        have earlier := submits.accepting entry member carriesNone
        rcases List.mem_append.mp earlier with kept | new
        · rw [retire_ring] at kept
          exact .inl (List.mem_of_mem_eraseIdx kept)
        · cases List.mem_singleton.mp new
          rw [retire_config]
          exact .inr rfl

/-- From a well-formed state every step is one of the moves. -/
theorem WellFormed.moves {label : Label} (wellFormed : server.WellFormed)
    (stepped : Step server label next) : Moves server label next := by
  cases stepped with
  | @complete _ index sqe res data answers completes iterated =>
      cases carried : sqe.userData with
      | none =>
          by_cases failing : res < 0
          · have failed : server.iterate index sqe res data answers =
                .ok (server.retire index sqe res data) := by
              simp only [iterate, eventLoopBody, carried, if_pos failing]
            rw [failed] at iterated
            cases iterated
            exact .acceptFailed completes carried failing
          · obtain ⟨reached, returned, moves⟩ :=
              wellFormed.accepts completes carried (Int.not_lt.mp failing)
            rw [returned] at iterated
            cases iterated
            exact moves
      | some id =>
          obtain ⟨event, self, rest, after, deleted, serves⟩ :=
            wellFormed.served completes carried iterated
          exact .served serves
  | @fill index sqe fd buffer offset bufferIndex data inFlight reading bounded =>
      obtain ⟨event, self, owned, live⟩ := wellFormed.owned_of_operation
        (List.mem_of_getElem? inFlight) fun accepting => by cases reading.symm.trans accepting
      exact .filled inFlight owned live reading bounded
  | @collect index sqe fd buffer offset bufferIndex data inFlight writing bounded taken =>
      obtain ⟨event, self, owned, live⟩ := wellFormed.owned_of_operation
        (List.mem_of_getElem? inFlight) fun accepting => by cases writing.symm.trans accepting
      exact .collected inFlight owned live writing bounded taken

end Server

end ModernCppHw.Socks5
