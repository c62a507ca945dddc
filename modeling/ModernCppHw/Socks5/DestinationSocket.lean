import ModernCppHw.Socks5.Deciding

/-! The requests a step submits, and the destination socket they are built
from. Where creating the socket fails with an error number, the connect method
goes on to dereference a null pointer. -/

set_option autoImplicit false

namespace ModernCppHw.Socks5

/-- The kinds of requests that are built from the destination socket. -/
def EventType.ofDestination : EventType → Bool
  | .destinationConnect | .destinationRead | .destinationWrite => true
  | .clientAccept | .clientRead | .clientWrite => false

/-- A request as it may be submitted for a session: one to the destination is
built from the session's socket, and one of a failed session is its refusal. -/
structure Request.Built (isRoot : Bool) (session : Session) (request : Request) : Prop where
  connected : request.type.ofDestination = true →
    ∃ socket, session.destinationSocket = some socket ∧ request.operation.fd = socket.fd
  refusal : session.isFailed = true →
    request = session.pendingWrite isRoot ∧ session.Refuses

namespace Session

variable {isRoot : Bool} {session : Session} {socket : Socket} {request : Request}
  {requests : List Request}

theorem UpRequest.fd (up : session.UpRequest isRoot socket request)
    (destined : request.type.ofDestination = true) : request.operation.fd = socket.fd := by
  cases up with
  | read => cases destined
  | write => rfl

theorem DownRequest.fd (down : session.DownRequest isRoot socket request)
    (destined : request.type.ofDestination = true) : request.operation.fd = socket.fd := by
  cases down with
  | read => rfl
  | write => cases destined

theorem Consistent.connected (consistent : session.Consistent isRoot requests)
    (healthy : session.isFailed = false) (member : request ∈ requests)
    (destined : request.type.ofDestination = true) :
    ∃ socket, session.destinationSocket = some socket ∧ request.operation.fd = socket.fd := by
  cases consistent with
  | reading | replying | granting =>
      cases List.mem_singleton.mp member
      cases destined
  | stalled => cases member
  | connecting _ _ _ connected =>
      cases List.mem_singleton.mp member
      exact ⟨_, connected, rfl⟩
  | proxying _ up down both _ connected =>
      rcases List.mem_pair.mp (both.mem_iff.mp member) with rfl | rfl
      · exact ⟨_, connected, up.fd destined⟩
      · exact ⟨_, connected, down.fd destined⟩
  | refusing _ _ failed | leaked _ failed | draining _ _ _ failed =>
      rw [healthy] at failed
      cases failed

theorem Consistent.notConnecting (consistent : session.Consistent isRoot requests)
    (failed : session.isFailed = true) : session.state ≠ .connectingToDestination := by
  cases consistent with
  | refusing before | leaked before => exact before.1
  | draining state => simp [state]
  | reading _ _ healthy | replying _ _ healthy | stalled _ healthy | connecting _ _ healthy
  | granting _ _ healthy | proxying _ _ _ _ healthy =>
      rw [failed] at healthy
      cases healthy

end Session

theorem Handled.of_socketError {env : Env} {call : Call} {destination : Destination}
    {rest : List Byte} {errno : Int} {result : Except Fault Call}
    (handled : Handled env call (.connect destination rest) result)
    (known : ((env.resolve destination).sockAddr? destination.port).isSome)
    (failed : env.socket = .error errno) : result = .error .nullDestinationSocket := by
  cases handled with
  | unresolved _ _ resolved | otherFamily _ _ resolved =>
      rw [resolved] at known
      cases known
  | connect _ _ _ created =>
      rw [failed] at created
      cases created
  | socketError => rfl
  | socketException _ _ _ other =>
      rw [failed] at other
      cases other

namespace Server

/-- The requests of a session that a label leaves in flight. -/
def remaining (server : Server) (label : Label) (client : SessionId) : List Request :=
  match label with
  | .complete index _ _ _ => (server.ring.eraseIdx index).filterMap (server.requestOf client)
  | .carry _ _ => server.requestsOf client

def Admits (server : Server) : Label → Prop
  | .complete index res data answers => ∃ sqe, server.Completes index sqe res data answers
  | .carry _ _ => True

/-- Serving the label dereferences no null socket, whatever it submits may be
submitted, and no failed session is taken to be connecting. -/
structure Orderly (server : Server) (label : Label) : Prop where
  dereferences : ¬ server.Faults label .nullDestinationSocket
  submits : ∀ next, Step server label next →
    ∀ client session, next.sessions.get? client = some session →
      ∃ new, (next.requestsOf client).Perm (server.remaining label client ++ new) ∧
        ∀ request ∈ new, request.Built server.config.isRoot session
  advances : ∀ next, Step server label next →
    ∀ client session, next.sessions.get? client = some session → session.isFailed = true →
      session.state ≠ .connectingToDestination

/-- The completion makes a session connect to an address it knows, and creating
the socket for it fails with an error number. -/
def SocketError (server : Server) : Label → Prop
  | .complete index res data answers =>
      ∃ found destination rest errno, server.concerned index = some found ∧
        found.session.decision found.event.type res data = some (.connect destination rest) ∧
        (((server.env answers).resolve destination).sockAddr? destination.port).isSome ∧
        answers.socket = .error errno
  | .carry _ _ => False

variable {server next : Server} {label : Label} {client : SessionId} {session : Session}

theorem retire_requestsOf (index : Nat) (sqe : Sqe) (res : Int) (data : List Byte)
    (answers : Answers) (client : SessionId) :
    (server.retire index sqe res data).requestsOf client =
      server.remaining (.complete index res data answers) client := by
  simp only [requestsOf, retire_ring, retire_requestOf, remaining]

theorem Moves.submits (moves : Moves server label next)
    (live : next.sessions.get? client = some session) :
    ∃ new, (next.requestsOf client).Perm (server.remaining label client ++ new) ∧
      ∀ request ∈ new, request.Built server.config.isRoot session := by
  have nothing : ∀ request ∈ ([] : List Request), request.Built server.config.isRoot session :=
    nofun
  cases moves with
  | filled | collected => exact ⟨[], by rw [List.append_nil]; exact .refl _, nothing⟩
  | @acceptFailed index sqe res data answers =>
      refine ⟨[], ?_, nothing⟩
      rw [List.append_nil, retire_requestsOf index sqe res data answers]
  | @acceptRefused index sqe res data answers =>
      refine ⟨[], ?_, nothing⟩
      rw [List.append_nil, ← retire_requestsOf index sqe res data answers]
      change ((server.retire index sqe res data).addClientAcceptRequest.requestsOf client).Perm _
      rw [addClientAcceptRequest_requestsOf]
  | @accepted index sqe res data answers bufferIndex freeBuffers eventPool ring _ completes unowned
      succeeded free frame events accepts accepting requests =>
      have earlier := requestsOf_retire_accept completes.inFlight unowned res data client
      rw [retire_requestsOf index sqe res data answers] at earlier
      refine ⟨_, (requests client).trans (earlier.symm.append_right _), ?_⟩
      intro request member
      split at member
      · next new =>
          subst new
          rw [frame, Heap.get?_create_self] at live
          cases live
          cases List.mem_singleton.mp member
          exact ⟨nofun, nofun⟩
      · cases member
  | @served index sqe res data answers event found rest after deleted _ serves =>
      by_cases same : event.client = client
      · subst same
        obtain ⟨rfl, rfl⟩ := serves.get?_own live
        have left := serves.remaining
        rw [retire_requestsOf index sqe res data answers] at left
        refine ⟨after.submitted, ?_,
          fun request member => ⟨fun destined => ?_, fun failed => ?_⟩⟩
        · rw [serves.own, left]
        · have consistent := serves.reacted.consistent rfl
          cases healthy : after.self.isFailed with
          | false =>
              exact consistent.connected healthy (List.mem_append_right _ member) destined
          | true =>
              rcases serves.reacted.refusal rfl healthy with none | ⟨only, -⟩
              · rw [none] at member
                cases member
              · rw [only] at member
                cases List.mem_singleton.mp member
                cases destined
        · rcases serves.reacted.refusal rfl failed with none | ⟨only, refuses⟩
          · rw [none] at member
            cases member
          · rw [only] at member
            exact ⟨List.mem_singleton.mp member, refuses⟩
      · have split := requestsOf_retire serves.completes.inFlight res data client
        rw [requestOf_of_ne serves.owned (Ne.symm same),
          retire_requestsOf index sqe res data answers] at split
        refine ⟨[], ?_, nothing⟩
        rw [List.append_nil]
        exact (serves.others client (Ne.symm same)).trans split

/-- The null socket is dereferenced exactly where creating a socket failed with
an error number. -/
theorem WellFormed.dereferences_iff (wellFormed : server.WellFormed)
    (admits : server.Admits label) :
    server.Faults label .nullDestinationSocket ↔ server.SocketError label := by
  constructor
  · intro faults
    rcases wellFormed.faulty faults with closing | ⟨index, res, data, answers, found, decision, rfl,
      concerned, decided, faulty⟩
    · cases closing
    · cases faulty with
      | socketError resolved failed =>
          exact ⟨found, _, _, _, concerned, decided, by rw [resolved]; rfl, failed⟩
  · intro failing
    cases label with
    | carry => exact absurd failing id
    | complete index res data answers =>
        obtain ⟨sqe, completes⟩ := admits
        obtain ⟨found, destination, left, errno, concerned, decided, known, failed⟩ := failing
        cases carried : sqe.userData with
        | none =>
            rw [completes.concerned_none carried] at concerned
            cases concerned
        | some id =>
            obtain ⟨event, session, rest, concerns, settled⟩ :=
              wellFormed.concerns completes carried
            rw [concerns.concerned] at concerned
            cases concerned
            obtain ⟨call, result, decides⟩ := concerns.decides decided
            refine ⟨sqe, completes, ?_⟩
            rw [settled, decides.reacted, decides.handled.of_socketError known failed]
            rfl

theorem WellFormed.orderly_iff (wellFormed : server.WellFormed) (admits : server.Admits label) :
    server.Orderly label ↔ ¬ server.SocketError label := by
  rw [← wellFormed.dereferences_iff admits]
  refine ⟨Orderly.dereferences, fun safe => ⟨safe, fun next stepped client session live => ?_,
    fun next stepped client session live failed => ?_⟩⟩
  · exact (wellFormed.moves stepped).submits live
  · have later := (wellFormed.moves stepped).wellFormed wellFormed
    exact (later.consistent client session live).notConnecting failed

end Server

open Transition

/-- In every state of every run, a completion dereferences no null socket and
submits only what may be submitted exactly when it is not one for which creating
the destination socket fails with an error number. -/
theorem requests_orderly_iff {config : Config} {server : Server}
    (reached : (eventLoop config).Reachable server) {label : Label} (admits : server.Admits label) :
    server.Orderly label ↔ ¬ server.SocketError label :=
  (reachable_wellFormed reached).orderly_iff admits

/-- A client has greeted and is about to send its connection request. -/
private def requesting : List Label := Label.relaying.take 3

private def faultOf {Value : Type} : Except Fault Value → Option Fault
  | .ok _ => none
  | .error fault => some fault

private theorem eq_error_of_faultOf {Value : Type} {fault : Fault} {result : Except Fault Value}
    (faulted : faultOf result = some fault) : result = .error fault := by
  cases result with
  | ok value => cases faulted
  | error other =>
      cases faulted
      rfl

/-- Any other exception is handled as intended. -/
theorem requests_orderly_iff_otherException :
    ∃ server label, (eventLoop (.single true)).Reachable server ∧
      server.sessions.next = 1 ∧ server.Admits label ∧
      (server.Orderly label ↔ ¬ server.SocketError label) := by
  obtain ⟨server, reached, shown⟩ := Server.exists_reachable (.single true) requesting
    (fun _ _ => true) (fun server => server.sessions.next = 1 ∧ ∃ sqe ∈ server.ring[1]?,
      sqe.operation.Yields server.files 10 [5, 1, 0, 1, 127, 0, 0, 1, 0, 80] ∧
      sqe.operation.Continues (server.underwayFor sqe) 10 [5, 1, 0, 1, 127, 0, 0, 1, 0, 80])
    (fun _ _ _ _ => trivial) (by decide)
  obtain ⟨opened, sqe, inFlight, yields, continues⟩ := of_decide_eq_true shown
  have admits : server.Admits
      (.complete 1 10 [5, 1, 0, 1, 127, 0, 0, 1, 0, 80] ⟨fun _ => .failure, .otherException⟩) :=
    ⟨sqe, inFlight, yields, trivial, .inr continues⟩
  exact ⟨server, _, reached, opened, admits, requests_orderly_iff reached admits⟩

/-- `EMFILE` on the socket for the destination. -/
theorem requests_disorderly_tooManyFiles :
    ¬ ∀ (config : Config) (server : Server) (label : Label),
      (eventLoop config).Reachable server → server.Admits label → server.Orderly label := by
  intro always
  obtain ⟨server, reached, shown⟩ := Server.exists_reachable (.single true) requesting
    (fun _ _ => true) (fun server => ∃ sqe ∈ server.ring[1]?,
      sqe.operation.Yields server.files 10 [5, 1, 0, 1, 127, 0, 0, 1, 0, 80] ∧
      sqe.operation.Continues (server.underwayFor sqe) 10 [5, 1, 0, 1, 127, 0, 0, 1, 0, 80] ∧
      faultOf (server.iterate 1 sqe 10 [5, 1, 0, 1, 127, 0, 0, 1, 0, 80]
        ⟨fun _ => .failure, .error 24⟩) = some .nullDestinationSocket)
    (fun _ _ _ _ => trivial) (by decide)
  obtain ⟨sqe, inFlight, yields, continues, faulted⟩ := of_decide_eq_true shown
  have completes : server.Completes 1 sqe 10 [5, 1, 0, 1, 127, 0, 0, 1, 0, 80]
      ⟨fun _ => .failure, .error 24⟩ := ⟨inFlight, yields, trivial, .inr continues⟩
  have orderly := always _ server (.complete 1 10 _ _) reached ⟨sqe, completes⟩
  exact orderly.dereferences ⟨sqe, completes, eq_error_of_faultOf faulted⟩

end ModernCppHw.Socks5
