import ModernCppHw.Socks5.Requests
import ModernCppHw.Socks5.ReactionProperties

/-! One iteration of the loop, taken apart: the kernel retires the entry, the
session it belongs to reacts, and the server settles what the reaction left. -/

set_option autoImplicit false

namespace ModernCppHw.Socks5.Server

variable {server : Server} {client : SessionId} {index : Nat} {sqe : Sqe} {res : Int}
  {answers : Answers} {id : EventId} {event : Event} {self : Session}

/-! Retiring an entry leaves the sessions and the event pool alone. -/

section Retire

variable (server index sqe res) (data : List Byte)

@[simp] theorem retire_config : (server.retire index sqe res data).config = server.config := by
  unfold retire
  split
  · rfl
  · cases sqe.operation <;> rfl

@[simp] theorem retire_sessions :
    (server.retire index sqe res data).sessions = server.sessions := by
  unfold retire
  split
  · rfl
  · cases sqe.operation <;> rfl

@[simp] theorem retire_eventPool :
    (server.retire index sqe res data).eventPool = server.eventPool := by
  unfold retire
  split
  · rfl
  · cases sqe.operation <;> rfl

@[simp] theorem retire_ring :
    (server.retire index sqe res data).ring = server.ring.eraseIdx index := by
  unfold retire
  split
  · rfl
  · cases sqe.operation <;> rfl

@[simp] theorem retire_freeBuffers :
    (server.retire index sqe res data).bufferPool.freeBuffers = server.bufferPool.freeBuffers := by
  unfold retire
  split
  · rfl
  · cases sqe.operation <;> rfl

@[simp] theorem retire_underway :
    (server.retire index sqe res data).underway = server.setUnderway sqe [] := by
  unfold retire
  split
  · rfl
  · cases sqe.operation <;> rfl

@[simp] theorem retire_transfers : (server.retire index sqe res data).transfers =
    if res < 0 then server.transfers else server.record sqe res.toNat data := by
  unfold retire
  split
  · rfl
  · cases sqe.operation <;> rfl

@[simp] theorem retire_owner (other : Sqe) :
    (server.retire index sqe res data).owner other = server.owner other := by
  simp only [owner, retire_eventPool]

@[simp] theorem retire_requestOf (other : SessionId) :
    (server.retire index sqe res data).requestOf other = server.requestOf other := by
  funext entry
  simp only [requestOf, retire_owner]

end Retire

/-- What a completion adds to the record of the bytes that crossed a session's
sockets: nothing if it is an error. -/
def transferred (server : Server) (event : Event) (session : Session) (sqe : Sqe) (res : Int)
    (data : List Byte) : List Transfer :=
  if res < 0 then []
  else [⟨event.client, event.type, session.state, session.isFailed,
    server.moved sqe res.toNat data⟩]

/-- What a completion adds to the record of the bytes stored for a session. -/
def delivered (server : Server) (event : Event) (sqe : Sqe) (res : Int) (data : List Byte) :
    List Delivery :=
  match sqe.operation with
  | .read _ buffer _ _ =>
      if res < 0 then []
      else [⟨event.client, buffer.address + (server.underwayFor sqe).length,
        data.drop (server.underwayFor sqe).length⟩]
  | .accept _ | .write _ _ _ _ | .connect _ _ => []

theorem client_of_transferred {session : Session} {data : List Byte} {transfer : Transfer}
    (member : transfer ∈ server.transferred event session sqe res data) :
    transfer.client = event.client := by
  unfold transferred at member
  split at member
  · cases member
  · cases List.mem_singleton.mp member
    rfl

theorem client_of_delivered {data : List Byte} {delivery : Delivery}
    (member : delivery ∈ server.delivered event sqe res data) : delivery.client = event.client := by
  unfold delivered at member
  cases operation : sqe.operation with
  | read fd buffer offset bufferIndex =>
      simp only [operation] at member
      split at member
      · cases member
      · cases List.mem_singleton.mp member
        rfl
  | _ => simp [operation] at member

/-- The memory the reaction to a completion finds. -/
def landed (server : Server) (sqe : Sqe) (res : Int) (data : List Byte) : Memory Byte :=
  match sqe.operation with
  | .read _ buffer _ _ =>
      if res < 0 then server.bufferPool.buffers
      else server.bufferPool.buffers.store (buffer.address + (server.underwayFor sqe).length)
        (data.drop (server.underwayFor sqe).length)
  | .accept _ | .write _ _ _ _ | .connect _ _ => server.bufferPool.buffers

theorem retire_buffers (res : Int) (data : List Byte) :
    (server.retire index sqe res data).bufferPool.buffers = server.landed sqe res data := by
  unfold retire landed
  by_cases failing : res < 0
  · cases sqe.operation <;> simp [failing]
  · cases sqe.operation <;> simp [failing, deliver]

theorem retire_files (server : Server) (index : Nat) (res : Int) (data : List Byte)
    (notAccept : ∀ fd, sqe.operation ≠ .accept fd) :
    (server.retire index sqe res data).files = server.files := by
  unfold retire
  split
  · rfl
  · cases operation : sqe.operation with
    | accept fd => exact absurd operation (notAccept fd)
    | _ => rfl

theorem retire_transfers_of_owned (owned : server.owner sqe = some event)
    (live : server.sessions.get? event.client = some self) (res : Int) (data : List Byte) :
    (server.retire index sqe res data).transfers =
      server.transfers ++ server.transferred event self sqe res data := by
  rw [retire_transfers]
  by_cases failing : res < 0
  · simp [failing, transferred]
  · simp [failing, transferred, record, owned, live]

theorem deliver_deliveries (owned : server.owner sqe = some event) (buffer : Region)
    (data : List Byte) : (server.deliver sqe buffer data).deliveries =
      server.deliveries ++
        [⟨event.client, buffer.address + (server.underwayFor sqe).length, data⟩] := by
  simp [deliver, owned]

theorem retire_deliveries (owned : server.owner sqe = some event) (res : Int)
    (data : List Byte) : (server.retire index sqe res data).deliveries =
      server.deliveries ++ server.delivered event sqe res data := by
  unfold retire delivered
  by_cases failing : res < 0
  · cases sqe.operation <;> simp [failing]
  · cases operation : sqe.operation <;> simp [failing]
    · exact deliver_deliveries owned _ _

theorem underwayFor_of_owned (owned : server.owner sqe = some event) :
    server.underwayFor sqe = server.underway event := by
  simp [underwayFor, owned]

theorem setUnderway_of_owned (owned : server.owner sqe = some event) (bytes : List Byte)
    (other : Event) : server.setUnderway sqe bytes other =
      if other = event then bytes else server.underway other := by
  simp [setUnderway, owned]

theorem setUnderway_own (owned : server.owner sqe = some event) (bytes : List Byte)
    (type : EventType) : server.setUnderway sqe bytes ⟨event.client, type⟩ =
      if type = event.type then bytes else server.underway ⟨event.client, type⟩ := by
  obtain ⟨client, kind⟩ := event
  simp [setUnderway, owned]

theorem setUnderway_other (owned : server.owner sqe = some event) (bytes : List Byte)
    (different : client ≠ event.client) (type : EventType) :
    server.setUnderway sqe bytes ⟨client, type⟩ = server.underway ⟨client, type⟩ := by
  rw [setUnderway_of_owned owned]
  exact if_neg fun equal => different (congrArg Event.client equal)

theorem setUnderway_of_unowned (unowned : sqe.userData = none) (bytes : List Byte) :
    server.setUnderway sqe bytes = server.underway := by
  simp [setUnderway, owner, unowned]

theorem ring_perm (inFlight : server.ring[index]? = some sqe) :
    server.ring.Perm (sqe :: server.ring.eraseIdx index) := by
  obtain ⟨bounded, rfl⟩ := List.getElem?_eq_some_iff.mp inFlight
  exact (List.getElem_cons_eraseIdx_perm bounded).symm

theorem requestsOf_retire (inFlight : server.ring[index]? = some sqe) (res : Int)
    (data : List Byte) (other : SessionId) :
    (server.requestsOf other).Perm ((server.requestOf other sqe).toList ++
      (server.retire index sqe res data).requestsOf other) := by
  have split := (ring_perm inFlight).filterMap (server.requestOf other)
  simp only [requestsOf, retire_ring, retire_requestOf]
  cases matched : server.requestOf other sqe with
  | none => simpa [List.filterMap_cons, matched] using split
  | some request => simpa [List.filterMap_cons, matched] using split

theorem acceptsInFlight_retire (inFlight : server.ring[index]? = some sqe) (res : Int)
    (data : List Byte) :
    server.acceptsInFlight = (server.retire index sqe res data).acceptsInFlight +
      if sqe.userData.isNone then 1 else 0 := by
  have counted := (ring_perm inFlight).countP_eq fun entry => entry.userData.isNone
  rw [List.countP_cons] at counted
  simpa [acceptsInFlight] using counted

theorem eventsInFlight_retire (inFlight : server.ring[index]? = some sqe) (res : Int)
    (data : List Byte) :
    server.eventsInFlight.Perm (sqe.userData.toList ++
      (server.retire index sqe res data).eventsInFlight) := by
  have split := (ring_perm inFlight).filterMap (·.userData)
  simp only [eventsInFlight, retire_ring]
  cases carried : sqe.userData with
  | none => simpa [List.filterMap_cons, carried] using split
  | some id => simpa [List.filterMap_cons, carried] using split

theorem EventsSound.retire (sound : server.EventsSound [])
    (inFlight : server.ring[index]? = some sqe) (res : Int) (data : List Byte) :
    (server.retire index sqe res data).EventsSound sqe.userData.toList where
  accounts := by
    rw [retire_config, retire_eventPool]
    exact sound.accounts.congr (eventsInFlight_retire inFlight res data)
  assigned := by
    intro entry member other carried
    rw [retire_ring] at member
    rw [retire_eventPool]
    exact sound.assigned entry (List.mem_of_mem_eraseIdx member) other carried

/-! The two calls an iteration makes on a session amount to one reaction. -/

/-- What a call changed is stored back. -/
def commit (client : SessionId) (after : Call) (server : Server) : Server :=
  { server with
    sessions := server.sessions.set client after.self
    bufferPool := { server.bufferPool with buffers := after.buffers }
    files := after.files }

/-- The server takes over what the reaction to a completion left. -/
def settle (client : SessionId) (id : EventId) (server : Server) (reaction : Call × Bool) :
    Except Fault Server := do
  let server ← submitAll client reaction.1.submitted (server.commit client reaction.1)
  let server ← if reaction.2 then server.deleteSession client else .ok server
  return server.returnEvent id

/-- The call a completion begins with. -/
def callOn (server : Server) (self : Session) : Call :=
  ⟨self, server.bufferPool.buffers, server.files, []⟩

theorem call_eq (live : server.sessions.get? client = some self)
    (method : Call → Except Fault Call) :
    server.call client method = (do
      let after ← method (server.callOn self)
      submitAll client after.submitted (server.commit client after)) := by
  simp only [call, session, live, orFault, bind, Except.bind, callOn]
  rfl

theorem submitAll_sessions {requests : List Request} {next : Server} :
    ∀ {server : Server}, submitAll client requests server = .ok next →
      next.sessions = server.sessions := by
  induction requests with
  | nil =>
      intro server submitted
      cases submitted
      rfl
  | cons request rest ih =>
      intro server submitted
      simp only [submitAll, submit] at submitted
      cases obtained : server.eventPool.obtainEvent ⟨client, request.type⟩ with
      | error fault => simp [obtained, bind, Except.bind] at submitted
      | ok pair =>
          simp only [obtained, bind, Except.bind, pure, Except.pure] at submitted
          have later := ih submitted
          exact later

/-- A call that submits nothing commits, and a second call finds what it left. -/
private theorem call_after_forget (live : server.sessions.get? client = some self)
    (method : Call → Except Fault Call) :
    (server.commit client (server.callOn self).forgetEvent).call client method = (do
      let after ← method (server.callOn self).forgetEvent
      submitAll client after.submitted (server.commit client after)) := by
  have stored : (server.commit client (server.callOn self).forgetEvent).sessions.get? client =
      some (server.callOn self).forgetEvent.self := Heap.get?_set_self live
  rw [call_eq stored]
  simp only [commit, Heap.set_set]
  rfl

theorem eventLoopBody_eq (filled : server.eventPool.events id = some event)
    (live : server.sessions.get? event.client = some self) :
    server.eventLoopBody answers ⟨some id, res⟩ = (do
      let reaction ← Call.react (server.env answers) event.type res (server.callOn self)
      server.settle event.client id reaction) := by
  have stored : (server.commit event.client (server.callOn self).forgetEvent).session event.client =
      .ok (server.callOn self).forgetEvent.self := by
    simp only [session, commit, Heap.get?_set_self live, orFault]
  have forgotten : server.call event.client (fun call => .ok call.forgetEvent) =
      .ok (server.commit event.client (server.callOn self).forgetEvent) := by
    rw [call_eq live]
    rfl
  simp only [eventLoopBody, Server.event, filled, orFault, bind, Except.bind]
  by_cases failing : res < 0
  · simp only [if_pos failing, handleSessionError, forgotten, stored, bind, Except.bind,
      Call.react]
    by_cases exhausted : (server.callOn self).forgetEvent.self.awaitingEventsCount = 0
    · simp only [if_pos exhausted]
      rfl
    · simp only [if_neg exhausted, call_after_forget live]
      cases failed : (server.callOn self).forgetEvent.failImmediately with
      | error fault => rfl
      | ok after =>
          simp only [bind, Except.bind, settle, pure, Except.pure]
          rfl
  · simp only [if_neg failing, handleSessionCompletion, forgotten, stored, bind, Except.bind,
      Call.react]
    by_cases failed : (server.callOn self).forgetEvent.self.isFailed = true
    · simp only [if_pos failed, pure, Except.pure]
      by_cases exhausted : (server.callOn self).forgetEvent.self.awaitingEventsCount = 0
      · simp only [exhausted]
        rfl
      · simp only [exhausted]
        rfl
    · simp only [if_neg failed, call_after_forget live]
      have sameEnv : (server.commit event.client (server.callOn self).forgetEvent).env answers =
          server.env answers := rfl
      rw [sameEnv]
      cases dispatched : (server.callOn self).forgetEvent.dispatch (server.env answers) event.type
          res.toNat with
      | error fault => rfl
      | ok after =>
          simp only [bind, Except.bind, settle, pure, Except.pure]
          cases submitted : submitAll event.client after.submitted
              (server.commit event.client after) with
          | error fault => rfl
          | ok next =>
              have found : next.session event.client = .ok after.self := by
                simp only [session, submitAll_sessions submitted, commit, Heap.get?_set_self live,
                  orFault]
              simp only [found, decide_eq_true_eq]
              by_cases ended : after.self.isFailed = true ∧ after.self.awaitingEventsCount = 0
              · simp only [if_pos ended]
              · simp only [if_neg ended]

end ModernCppHw.Socks5.Server
