import ModernCppHw.Socks5.ConnectError
import ModernCppHw.Socks5.Forwarding

/-! The messages a client is sent before it is relayed to. Each is written from the
front of what its session still has to write, in as many parts as the system makes
of it. -/

set_option autoImplicit false

namespace ModernCppHw.Socks5

/-- What was written in reply to the greeting. -/
def selected : List Transfer → List Byte :=
  written fun transfer => transfer.state = .readingAuthMethods

/-- What was written while relaying. -/
def relayed : List Transfer → List Byte :=
  written fun transfer => transfer.state = .proxyingRequests

namespace Session

variable {isRoot : Bool} {session : Session} {requests : List Request} {request : Request}

theorem Replies.length_le (replies : session.Replies) :
    session.writeClientBuffer.length ≤ halfBufferSize := by
  obtain ⟨message, reply, ending⟩ := replies
  apply Nat.le_trans ending.length_le
  cases reply with
  | method | refusal => exact Nat.le_of_ble_eq_true rfl
  | @grant address =>
      have length : (Call.grantMessage address).length ≤ 22 := by
        cases address <;> simp [Call.grantMessage]
      exact Nat.le_trans length (Nat.le_of_ble_eq_true rfl)

theorem Consistent.eq_pendingWrite (consistent : session.Consistent isRoot requests)
    (early : session.state ≠ .proxyingRequests) (member : request ∈ requests)
    (writing : request.type = .clientWrite) :
    requests = [request] ∧ request = session.pendingWrite isRoot := by
  cases consistent with
  | reading | connecting =>
      cases List.mem_singleton.mp member
      cases writing
  | replying | granting | refusing =>
      cases List.mem_singleton.mp member
      exact ⟨rfl, rfl⟩
  | stalled | leaked => cases member
  | proxying state | draining state => exact absurd state early

end Session

namespace Server

variable {config : Config} {server : Server} {client : SessionId} {index : Nat} {sqe : Sqe}
  {res : Int} {data : List Byte} {answers : Answers} {event : Event} {session : Session}
  {rest : List Request} {request : Request}

open Transition

/-- A write to a client that is not relayed to is of all that is left of a message. -/
theorem content_of_early (reached : (eventLoop config).Reachable server)
    (live : server.sessions.get? client = some session)
    (early : session.state ≠ .proxyingRequests) (member : request ∈ server.requestsOf client)
    (writing : request.type = .clientWrite) :
    server.requestsOf client = [request] ∧ request = session.pendingWrite server.config.isRoot ∧
      (server.connection client session).content request = session.writeClientBuffer := by
  have consistent := (reachable_wellFormed reached).consistent client session live
  obtain ⟨single, pending⟩ := consistent.eq_pendingWrite early member writing
  refine ⟨single, pending, ?_⟩
  cases (reachable_sourced reached client session live).writes request member
    (by rw [writing]; rfl) with
  | reply _ replies loaded =>
      refine loaded.trans (List.take_of_length_le ?_)
      rw [pending]
      exact Nat.le_min.mpr ⟨replies.length_le, Nat.le_refl _⟩
  | payload state => exact absurd state early

/-- What such a write has taken when it completes. -/
theorem Concerns.moved_of_early (reached : (eventLoop config).Reachable server)
    (concerns : server.Concerns index sqe res data answers event session rest)
    (early : session.state ≠ .proxyingRequests) (writing : event.type = .clientWrite)
    (succeeded : 0 ≤ res) :
    server.moved sqe res.toNat data = session.writeClientBuffer.take res.toNat := by
  have own := concerns.member
  obtain ⟨-, pending, content⟩ := content_of_early reached concerns.live early own writing
  have operation : sqe.operation = .write session.fd ⟨session.buffer1.first,
      min halfBufferSize session.writeClientBuffer.length⟩ 0
      (Session.registered server.config.isRoot session.buffer1Index) :=
    congrArg Request.operation pending
  have bounded : res.toNat ≤ sqe.operation.region.length := by
    have fits := concerns.bounded
    omega
  have moves := concerns.moved_write operation succeeded (concerns.intact early)
  simp only [operation, Operation.region] at bounded
  simp only [Connection.content, operation, Operation.region] at content
  rw [moves, ← Memory.take_load _ _ bounded]
  exact congrArg (List.take res.toNat) content

/-- What a completion adds to the bytes that were written in some of the states. -/
theorem written_completed (chosen : State → Prop) [DecidablePred chosen]
    (transfers : List Transfer) :
    written (fun transfer => chosen transfer.state)
        (transfers ++ server.transferred event session sqe res data) =
      written (fun transfer => chosen transfer.state) transfers ++
        if 0 ≤ res ∧ event.type = .clientWrite ∧ chosen session.state then
          server.moved sqe res.toNat data else [] := by
  rw [written_append]
  refine congrArg (written _ transfers ++ ·) ?_
  split
  · next counts => exact written_transferred counts.2.1 counts.1 fun _ => decide_eq_true counts.2.2
  · next other =>
      by_cases succeeded : 0 ≤ res
      · apply written_transferred_of_not
        by_cases writing : event.type = .clientWrite
        · exact .inr fun _ => decide_eq_false fun same => other ⟨succeeded, writing, same⟩
        · exact .inl writing
      · rw [transferred, if_pos (Int.not_le.mp succeeded)]
        rfl

theorem selected_completed (transfers : List Transfer) :
    selected (transfers ++ server.transferred event session sqe res data) =
      selected transfers ++
        if 0 ≤ res ∧ event.type = .clientWrite ∧ session.state = .readingAuthMethods then
          server.moved sqe res.toNat data else [] :=
  written_completed (fun state => state = .readingAuthMethods) transfers

theorem answered_completed (transfers : List Transfer) :
    answered (transfers ++ server.transferred event session sqe res data) =
      answered transfers ++
        if 0 ≤ res ∧ event.type = .clientWrite ∧ session.state ≠ .readingAuthMethods ∧
          session.state ≠ .proxyingRequests then
          server.moved sqe res.toNat data else [] :=
  written_completed
    (fun state => state ≠ .readingAuthMethods ∧ state ≠ .proxyingRequests) transfers

theorem relayed_completed (transfers : List Transfer) :
    relayed (transfers ++ server.transferred event session sqe res data) =
      relayed transfers ++
        if 0 ≤ res ∧ event.type = .clientWrite ∧ session.state = .proxyingRequests then
          server.moved sqe res.toNat data else [] :=
  written_completed (fun state => state = .proxyingRequests) transfers

end Server

end ModernCppHw.Socks5
