import ModernCppHw.Socks5.Bounds
import ModernCppHw.Socks5.Relay

/-! How far what a direction has written may be behind what it has read. Only amounts
are counted, so no run is left out: writes may be taken in part, and what they take
need not be what was read. -/

set_option autoImplicit false

namespace ModernCppHw.Socks5

/-- What is read and not yet written is what is left of the current payload, of which
there are at most `bound` bytes. -/
structure Progress.Balanced (progress : Progress) (bound : Nat) : Prop where
  owed : progress.read.length + progress.taken.length =
    progress.written.length + progress.payload.length
  taken : progress.taken.length ≤ progress.payload.length
  payload : progress.payload.length ≤ bound

namespace Progress.Balanced

variable {progress : Progress} {bound : Nat} {data chunk : List Byte}

theorem start : Progress.Balanced {} bound := ⟨rfl, Nat.le_refl _, Nat.zero_le _⟩

theorem reads (balanced : progress.Balanced bound)
    (whole : progress.taken.length = progress.payload.length) (fits : data.length ≤ bound) :
    (progress.reads data).Balanced bound := by
  have owed := balanced.owed
  refine ⟨?_, Nat.zero_le _, fits⟩
  simp only [Progress.reads, List.length_append, List.length_nil]
  omega

theorem writes (balanced : progress.Balanced bound)
    (fits : chunk.length + progress.taken.length ≤ progress.payload.length) :
    (progress.writes chunk).Balanced bound := by
  have owed := balanced.owed
  refine ⟨?_, ?_, balanced.payload⟩
  · simp only [Progress.writes, List.length_append]
    omega
  · simp only [Progress.writes, List.length_append]
    omega

end Progress.Balanced

/-- A read that brings a payload asks for as much as its direction has room for. -/
def Session.AsksWhole (session : Session) (isRoot : Bool) (request : Request) : Prop :=
  session.state = .proxyingRequests → ∀ direction : Direction,
    request.type = direction.readType →
      request.operation.region.length = direction.readLength isRoot

namespace Session

variable {isRoot : Bool} {session : Session} {socket : Socket} {request : Request}
  {requests : List Request}

theorem UpRequest.asksWhole (up : session.UpRequest isRoot socket request) :
    session.AsksWhole isRoot request := by
  intro _ direction reading
  cases Direction.Includes.unique (.inl reading) up.included
  cases up with
  | read => rfl
  | write => cases reading

theorem DownRequest.asksWhole (down : session.DownRequest isRoot socket request) :
    session.AsksWhole isRoot request := by
  intro _ direction reading
  cases Direction.Includes.unique (.inl reading) down.included
  cases down with
  | read => rfl
  | write => cases reading

theorem Consistent.asksWhole (consistent : session.Consistent isRoot requests)
    (going : session.isFailed = false ∨ session.state.BeforeConnect) (member : request ∈ requests) :
    session.AsksWhole isRoot request := by
  intro proxying
  have beyond : ¬ session.state.BeforeConnect := fun before => before.2 proxying
  cases consistent with
  | proxying _ up down both =>
      rcases List.mem_pair.mp (both.mem_iff.mp member) with rfl | rfl
      · exact up.asksWhole proxying
      · exact down.asksWhole proxying
  | draining _ _ _ failed =>
      rcases going with healthy | before
      · cases healthy.symm.trans failed
      · exact absurd before beyond
  | reading inPhase => exact absurd (inPhase.state ▸ Phase.state_beforeConnect _) beyond
  | replying state | stalled state | connecting state | granting state =>
      cases state.symm.trans proxying
  | refusing before | leaked before => exact absurd before beyond

end Session

open Transition

namespace Server

variable {config : Config} {server next : Server} {client : SessionId} {label : Label}
  {direction : Direction}

theorem reachable_asksWhole (reached : (eventLoop config).Reachable server) :
    ∀ client session, server.sessions.get? client = some session →
      ∀ request ∈ server.requestsOf client, session.AsksWhole config.isRoot request :=
  reachable_requests (fun session request => session.AsksWhole config.isRoot request)
    (fun _ _ consistent going _ member => consistent.asksWhole going member)
    (fun _ _ _ asks => asks) reached

/-- The bytes a completion moves are at most as many as were asked for. -/
theorem Concerns.moved_le {index : Nat} {sqe : Sqe} {res : Int} {data : List Byte}
    {answers : Answers} {event : Event} {session : Session} {rest : List Request}
    (concerns : server.Concerns index sqe res data answers event session rest)
    (succeeded : 0 ≤ res) :
    (server.moved sqe res.toNat data).length ≤ sqe.operation.region.length := by
  have bounded := concerns.bounded
  have yields := concerns.completes.yields
  cases operation : sqe.operation with
  | accept | connect =>
      rw [moved, operation]
      exact Nat.zero_le _
  | write fd buffer offset bufferIndex =>
      rw [concerns.length_moved operation succeeded, ← operation]
      omega
  | read fd buffer offset bufferIndex =>
      rw [operation] at yields
      simp only [moved, operation, Operation.region]
      rcases yields with failing | ⟨-, fits⟩
      · exact absurd failing (Int.not_lt.mpr succeeded)
      · exact fits

/-- A step adds nothing to a direction, or what a request of it in flight was to
move. -/
theorem Moves.amounts (moves : Moves server label next) (client : SessionId)
    (direction : Direction) :
    let before := direction.progress (server.transfersOf client)
    let after := direction.progress (next.transfersOf client)
    after = before ∨ ∃ session request bytes, server.sessions.get? client = some session ∧
      session.state = .proxyingRequests ∧ request ∈ server.requestsOf client ∧
      bytes.length ≤ request.operation.region.length ∧
      ((request.type = direction.readType ∧ after = before.reads bytes) ∨
        (request.type = direction.writeType ∧ after = before.writes bytes)) := by
  intro before after
  rcases moves.records client with same | ⟨index, sqe, res, data, answers, event, session, rest,
    rfl, rfl, concerns, added⟩
  · exact .inl (congrArg direction.progress same)
  · have recorded : after = direction.progress (_ ++ _) := congrArg direction.progress added
    by_cases idle : session.state ≠ .proxyingRequests ∨ ¬ direction.Includes event.type ∨ res < 0
    · exact .inl (recorded.trans (Direction.progress_of_other _ idle))
    · simp only [not_or, not_not] at idle
      obtain ⟨proxying, included, healthy⟩ := idle
      have succeeded := Int.not_lt.mp healthy
      refine .inr ⟨session, _, _, concerns.live, proxying, concerns.member,
        concerns.moved_le succeeded, included.imp (fun reading => ⟨reading, ?_⟩)
          fun writing => ⟨writing, ?_⟩⟩
      · exact recorded.trans (Direction.progress_of_read _ proxying reading succeeded)
      · exact recorded.trans (Direction.progress_of_write _ proxying writing succeeded)

theorem reachable_balanced (reached : (eventLoop config).Reachable server) :
    ∀ client (direction : Direction), (direction.progress (server.transfersOf client)).Balanced
      (direction.readLength config.isRoot) := by
  refine reached.invariant (fun state => ∀ client (direction : Direction),
      (direction.progress (state.transfersOf client)).Balanced
        (direction.readLength config.isRoot))
    (fun state started client direction => ?_)
    fun state label next earlier balanced _ stepped client direction => ?_
  · rw [started]
    exact .start
  · rcases ((reachable_wellFormed earlier).moves stepped).amounts client direction with same |
      ⟨session, request, bytes, live, proxying, member, fits, ⟨reading, moved⟩ | ⟨writing, moved⟩⟩
    · rw [same]
      exact balanced client direction
    · have agrees := reachable_agrees earlier direction client session live
      have asks := reachable_asksWhole earlier client session live request member proxying
      rw [moved]
      exact (balanced client direction).reads (agrees.reading proxying request member reading)
        (asks direction reading ▸ fits)
    · have agrees := reachable_agrees earlier direction client session live
      have sends := (agrees.writing proxying request member writing).remaining
      rw [moved]
      exact (balanced client direction).writes (sends ▸ Nat.add_le_add_right fits _)

/-- What a client's direction has read while relaying and not written. -/
def backlog (server : Server) (client : SessionId) (direction : Direction) : Int :=
  let progress := direction.progress (server.transfersOf client)
  progress.read.length - progress.written.length

end Server

/-- In every run, of every client, relayed or gone, as much as was read of it in either
direction since relaying began has been written on, but for at most one payload; nothing is
behind while the direction reads again, and while it writes, just what it has asked to write
is. What was held back when relaying began is not counted. -/
theorem backlog_bounded {config : Config} {server : Server}
    (reached : (eventLoop config).Reachable server) (client : SessionId) (direction : Direction) :
    0 ≤ server.backlog client direction ∧
    server.backlog client direction ≤ direction.readLength config.isRoot ∧
    ∀ session, server.sessions.get? client = some session → session.state = .proxyingRequests →
      ∀ request ∈ server.requestsOf client,
        (request.type = direction.readType → server.backlog client direction = 0) ∧
        (request.type = direction.writeType →
          server.backlog client direction = request.operation.region.length) := by
  obtain ⟨owed, taken, payload⟩ := Server.reachable_balanced reached client direction
  unfold Server.backlog
  dsimp only
  refine ⟨by omega, by omega, fun session live proxying request member => ?_⟩
  have agrees := reachable_agrees reached direction client session live
  constructor
  · intro reading
    have whole := agrees.reading proxying request member reading
    simp only [Connection.progress, Server.connection] at whole
    omega
  · intro writing
    have sends := (agrees.writing proxying request member writing).remaining
    simp only [Connection.progress, Server.connection] at sends
    omega

/-- Of three bytes of a client one has been written on. -/
theorem backlog_bounded_part :
    ∃ server, (eventLoop (.single true)).Reachable server ∧ server.backlog 0 .up = 2 ∧
      server.backlog 0 .up ≤ Direction.up.readLength true := by
  obtain ⟨server, reached, shown⟩ := Server.exists_reachable (.single true)
    (Label.relaying ++ [.complete 2 3 [7, 8, 9] .none, .complete 2 1 [] .none]) (fun _ _ => true)
    (fun server => server.backlog 0 .up = 2) (fun _ _ _ _ => trivial) (by decide)
  exact ⟨server, reached, of_decide_eq_true shown, (backlog_bounded reached 0 .up).2.1⟩

end ModernCppHw.Socks5
