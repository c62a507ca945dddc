import ModernCppHw.Socks5.Descriptors
import ModernCppHw.Socks5.Refusal

/-! A connection request whose connect request fails is not refused: that request
is the last its session awaits, so the session is deleted unanswered. -/

set_option autoImplicit false

namespace ModernCppHw.Socks5

/-- What was written in answer to a connection request: after the reply to the
greeting and before relaying. -/
def answered : List Transfer → List Byte :=
  written fun transfer =>
    transfer.state ≠ .readingAuthMethods ∧ transfer.state ≠ .proxyingRequests

theorem Handled.connects {env : Env} {call after : Call} {decision : Decision} {new : Request}
    (handled : Handled env call decision (.ok after)) (fresh : call.submitted = [])
    (member : new ∈ after.submitted) (connecting : new.type = .destinationConnect) :
    after.self.state = .connectingToDestination := by
  generalize ended : Except.ok after = result at handled
  have only : ∀ {submitted : List Request} {single : Request},
      submitted = call.submitted ++ [single] → new ∈ submitted →
      single.type ≠ .destinationConnect → False := by
    intro submitted single same among other
    rw [same, fresh, List.nil_append, List.mem_singleton] at among
    exact other (among ▸ connecting)
  cases handled with
  | wait | selectMethod | refuseMethods | refuse | unresolved | socketException =>
      cases ended
      exact (only rfl member nofun).elim
  | close =>
      obtain ⟨files, -, -, rfl⟩ := Call.failImmediately_ok ended.symm
      exact absurd member (not_submitted fresh rfl)
  | otherFamily =>
      cases Call.unreachable_ok ended.symm
      exact absurd member (not_submitted fresh rfl)
  | connect =>
      cases ended
      rfl
  | socketError => cases ended

/-- The connect request is submitted by a session of the handshake that has not
failed, and a session still in the handshake came from one, by a read of the
client or by the last write of the reply to its greeting. -/
theorem Reacts.early {env : Env} {call after : Call} {res : Int} {request : Request}
    {rest : List Request} (reacted : Reacts env call res request rest (.ok (after, false)))
    (fresh : call.submitted = [])
    (early : (after.self.isFailed = false ∧ after.self.state.BeforeConnect) ∨
      ∃ new ∈ after.submitted, new.type = .destinationConnect) :
    call.self.isFailed = false ∧ call.self.state.BeforeConnect ∧
      (request.type = .clientRead ∨ call.self.state = .readingAuthMethods) ∧
      ∀ new ∈ after.submitted, new.type = .destinationConnect →
        after.self.state = .connectingToDestination := by
  generalize ended : Except.ok (after, false) = result at reacted
  have late : ∀ {new : Request}, ¬ after.self.state.BeforeConnect →
      after.submitted = [new] → new.type ≠ .destinationConnect → False := by
    intro new beyond single other
    rcases early with ⟨-, before⟩ | ⟨found, member, connecting⟩
    · exact beyond before
    · rw [single, List.mem_singleton] at member
      exact other (member ▸ connecting)
  have proxied : after.self.state = .proxyingRequests → ¬ after.self.state.BeforeConnect :=
    fun state before => before.2 state
  have connected : after.self.state = .connectingToDestination →
      ¬ after.self.state.BeforeConnect := fun state before => before.1 state
  cases reacted with
  | lost | hungUp =>
      obtain ⟨files, -, -, rfl⟩ := Call.failImmediately_ok (kept_ok ended.symm).1
      rcases early with ⟨healthy, -⟩ | ⟨found, member, -⟩
      · cases healthy
      · exact absurd member (not_submitted fresh rfl)
  | decoded inPhase healthy null awaited positive handled =>
      obtain ⟨rfl, -⟩ := kept_ok ended.symm
      have before : call.self.state.BeforeConnect := inPhase.state ▸ Phase.state_beforeConnect _
      exact ⟨healthy, before, .inl rfl, fun new member => handled.connects fresh member⟩
  | methodGoesOn state healthy =>
      cases ended
      have before : call.self.state.BeforeConnect := by
        rw [state]
        decide
      refine ⟨healthy, before, .inr state, fun new member connecting => ?_⟩
      have submitted : new ∈ call.submitted ++ [_] := member
      rw [fresh, List.nil_append, List.mem_singleton] at submitted
      cases submitted
      cases connecting
  | methodSent state healthy null awaited succeeded whole handled =>
      obtain ⟨rfl, -⟩ := kept_ok ended.symm
      have before : call.self.state.BeforeConnect := by
        rw [state]
        decide
      exact ⟨healthy, before, .inr state, fun new member => handled.connects fresh member⟩
  | refusalSent before failed =>
      cases ended
      rcases early with ⟨healthy, -⟩ | ⟨found, member, -⟩
      · exact absurd (failed.symm.trans healthy) nofun
      · exact absurd member (not_submitted fresh rfl)
  | deleted => cases ended
  | connected state | grantGoesOn state =>
      cases ended
      exact (late (connected state) (congrArg (· ++ [_]) fresh) nofun).elim
  | granted =>
      cases ended
      have beyond := proxied (Call.beginProxying_state _ _).1
      rcases early with ⟨-, before⟩ | ⟨found, member, connecting⟩
      · exact absurd before beyond
      · by_cases held : call.self.readBuffer = []
        · rw [Call.beginProxying_reads fresh held] at member
          rcases List.mem_pair.mp member with rfl | rfl <;> cases connecting
        · rw [Call.beginProxying_writes fresh held] at member
          rcases List.mem_pair.mp member with rfl | rfl <;> cases connecting
  | upRead state | upGoesOn state =>
      cases ended
      exact (late (proxied state) (Call.forwardUp_submitted fresh _ _ _) nofun).elim
  | upWritten state =>
      cases ended
      exact (late (proxied state) (Call.addClientReadRequest_submitted fresh) nofun).elim
  | downRead state | downGoesOn state =>
      cases ended
      exact (late (proxied state) (Call.forwardDown_submitted fresh _ _) nofun).elim
  | downWritten state =>
      cases ended
      exact (late (proxied state) (Call.readDestination_submitted fresh _) nofun).elim

/-- A session that is connecting awaits one request, and is deleted when that fails. -/
theorem Reacts.of_connecting_error {env : Env} {call after : Call} {res : Int} {request : Request}
    {rest : List Request} {deleted : Bool}
    (reacted : Reacts env call res request rest (.ok (after, deleted)))
    (state : call.self.state = .connectingToDestination) (failing : res < 0) :
    rest = [] ∧ deleted = true := by
  generalize ended : Except.ok (after, deleted) = result at reacted
  have beyond : ¬ call.self.state.BeforeConnect := fun before => before.1 state
  cases reacted with
  | lost before | refusalSent before => exact absurd before beyond
  | decoded inPhase _ _ _ positive => exact absurd failing (Int.not_lt.mpr (Int.le_of_lt positive))
  | methodGoesOn early | methodSent early => exact absurd (early.symm.trans state) nofun
  | deleted =>
      cases ended
      exact ⟨rfl, rfl⟩
  | connected _ _ _ _ _ zero => exact absurd failing (Int.not_lt.mpr (Int.le_of_eq zero.symm))
  | grantGoesOn _ _ _ _ succeeded | granted _ _ _ _ succeeded =>
      exact absurd failing (Int.not_lt.mpr succeeded)
  | hungUp proxying | upRead proxying | upWritten proxying | upGoesOn proxying
  | downRead proxying | downWritten proxying | downGoesOn proxying =>
      exact absurd (proxying.symm.trans state) nofun

/-- As long as a session has not been connected, its client has had no answer to
a connection request. -/
structure Connection.Unanswered (connection : Connection) : Prop where
  before : connection.session.isFailed = false → connection.session.state.BeforeConnect →
    answered connection.transfers = []
  connecting : ∀ request ∈ connection.requests, request.type = .destinationConnect →
    connection.session.state = .connectingToDestination ∧ answered connection.transfers = []

namespace Server

variable {server next : Server} {client : SessionId} {label : Label} {connection : Connection}
  {index : Nat} {sqe : Sqe} {res : Int} {data : List Byte} {answers : Answers} {event : Event}
  {session : Session} {rest : List Request} {after : Call}

theorem Concerns.unanswered
    (concerns : server.Concerns index sqe res data answers event session rest)
    (law : (server.connection event.client session).Unanswered)
    (returned : Call.react (server.env answers) event.type res
      ((server.retire index sqe res data).callOn session) = .ok (after, false)) :
    (server.afterwards event session sqe res data rest after).Unanswered := by
  have reacted := concerns.reacted returned
  have silent : (after.self.isFailed = false ∧ after.self.state.BeforeConnect) ∨
      (∃ new ∈ after.submitted, new.type = .destinationConnect) →
      answered (server.transfersOf event.client ++
        server.transferred event session sqe res data) = [] := by
    intro early
    obtain ⟨healthy, before, reading, -⟩ := reacted.early rfl early
    have earlier : answered (server.transfersOf event.client) = [] := law.before healthy before
    rw [answered, written_append, ← answered, earlier, List.nil_append]
    refine written_transferred_of_not (reading.imp (fun type => ?_) fun state bytes => ?_)
    · have same : event.type = .clientRead := type
      rw [same]
      exact nofun
    · have same : session.state = .readingAuthMethods := state
      simp [same]
  refine ⟨fun healthy before => silent (.inl ⟨healthy, before⟩), fun request member connects => ?_⟩
  rcases List.mem_append.mp member with left | new
  · have proxying : session.state = .proxyingRequests := (reacted.bystander left).1
    have connecting : session.state = .connectingToDestination :=
      (law.connecting request (concerns.left_member left) connects).1
    exact absurd (connecting.symm.trans proxying) nofun
  · have early : ∃ new ∈ after.submitted, new.type = .destinationConnect := ⟨request, new, connects⟩
    exact ⟨(reacted.early rfl (.inr early)).2.2.2 request new connects, silent (.inr early)⟩

end Server

open Transition

theorem reachable_unanswered {config : Config} {server : Server}
    (reached : (eventLoop config).Reachable server) :
    ∀ client session, server.sessions.get? client = some session →
      (server.connection client session).Unanswered := by
  refine reachable_connection Connection.Unanswered ?_ reached
  intro state label client connection _ _ _ lawful evolves
  cases evolves with
  | opened =>
      refine ⟨fun _ _ => rfl, fun request member connects => ?_⟩
      cases List.mem_singleton.mp member
      cases connects
  | undisturbed live same =>
      have law := lawful _ live
      constructor
      · rw [same.session, same.transfers]
        exact law.before
      · intro request member connects
        rw [same.session, same.transfers]
        exact law.connecting request (same.requests.mem_iff.mp member) connects
  | filled _ _ _ live | collected _ _ _ live =>
      have law := lawful _ live
      exact ⟨law.before, law.connecting⟩
  | completed concerns owner returned =>
      subst owner
      exact concerns.unanswered (lawful _ concerns.live) returned

namespace Server

/-- The label completes the connect request of a session with an error. -/
def ConnectFails (server : Server) (client : SessionId) (errno : Int) : Label → Prop
  | .complete index res _ _ =>
      res < 0 ∧ errno = -res ∧
        ∃ found ∈ server.concerned index, found.event = ⟨client, .destinationConnect⟩
  | .carry _ _ => False

/-- The client has been sent one reply to its connection request, a refusal with
the code. -/
def Replied (server : Server) (client : SessionId) (code : Byte) : Prop :=
  answered (server.transfersOf client) = failMessage code

instance (server : Server) (client : SessionId) (errno : Int) (label : Label) :
    Decidable (server.ConnectFails client errno label) :=
  match label with
  | .complete .. | .carry .. => by unfold ConnectFails; infer_instance

instance (server : Server) (client : SessionId) (code : Byte) :
    Decidable (server.Replied client code) := by
  unfold Replied
  infer_instance

variable {config : Config} {server next : Server} {client : SessionId} {label : Label}
  {errno : Int}

theorem ConnectFails.removed (reached : (eventLoop config).Reachable server)
    (fails : server.ConnectFails client errno label) (stepped : Step server label next) :
    ∃ index sqe res data answers event session after,
      label = .complete index res data answers ∧ event.client = client ∧ res < 0 ∧
      server.Serves index sqe res data answers event session [] after true next ∧
      answered (server.transfersOf client) = [] := by
  have wellFormed := reachable_wellFormed reached
  have moves := wellFormed.moves stepped
  cases moves with
  | filled | collected => exact fails.elim
  | acceptFailed completes unowned | acceptRefused completes unowned
  | accepted completes unowned =>
      obtain ⟨-, -, found, concerned, -⟩ := fails
      rw [completes.concerned_none unowned] at concerned
      cases concerned
  | @served index sqe res data answers event session rest after deleted _ serves =>
      obtain ⟨failing, -, found, concerned, named⟩ := fails
      rw [serves.concerned] at concerned
      cases concerned
      subst named
      have member : (⟨.destinationConnect, sqe.operation⟩ : Request) ∈ server.requestsOf client :=
        serves.member
      obtain ⟨state, silent⟩ :=
        (reachable_unanswered reached client session serves.live).connecting _ member rfl
      obtain ⟨rfl, rfl⟩ := serves.reacted.of_connecting_error state failing
      exact ⟨index, sqe, res, data, answers, _, session, after, rfl, rfl, failing, serves, silent⟩

/-- A client whose session is gone without an answer never gets one. -/
theorem unanswered_forever (reached : (eventLoop config).Reachable server)
    (used : client < server.sessions.next) (gone : server.sessions.get? client = none)
    (silent : answered (server.transfersOf client) = []) {later : Server}
    (leads : (eventLoop config).Leads server later) :
    later.sessions.get? client = none ∧ answered (later.transfersOf client) = [] := by
  refine (System.Leads.invariant (fun state => client < state.sessions.next ∧
    state.sessions.get? client = none ∧ answered (state.transfersOf client) = []) leads reached
    ⟨used, gone, silent⟩ fun state label next earlier holds stepped => ?_).2
  obtain ⟨used, gone, silent⟩ := holds
  have moves := (reachable_wellFormed earlier).moves stepped
  refine ⟨Nat.lt_of_lt_of_le used moves.next_le, moves.dead used gone, ?_⟩
  rcases moves.records client with same | ⟨index, sqe, res, data, answers, event, session, rest,
    labelled, owner, concerns, -⟩
  · rw [same]
    exact silent
  · subst owner
    rw [concerns.live] at gone
    cases gone

/-- The session whose connect request fails is gone for good, its client unanswered. -/
theorem ConnectFails.forever (reached : (eventLoop config).Reachable server)
    (fails : server.ConnectFails client errno label) (stepped : Step server label next)
    {later : Server} (leads : (eventLoop config).Leads next later) :
    later.sessions.get? client = none ∧ answered (later.transfersOf client) = [] := by
  obtain ⟨index, sqe, res, data, answers, event, session, after, rfl, rfl, failing, serves,
    silent⟩ := fails.removed reached stepped
  have moves := (reachable_wellFormed reached).moves stepped
  have gone : next.sessions.get? event.client = none := serves.get?_removed
  have unanswered : answered (next.transfersOf event.client) = [] := by
    have recorded := serves.transfersOf event.client
    rw [if_pos rfl, Server.transferred, if_pos failing, List.append_nil] at recorded
    rw [recorded]
    exact silent
  have used : event.client < next.sessions.next :=
    Nat.lt_of_lt_of_le (Heap.get?_eq_some_lt serves.live) moves.next_le
  exact unanswered_forever (.step reached trivial stepped) used gone unanswered leads

theorem not_replied_of_unanswered {code : Byte}
    (silent : answered (server.transfersOf client) = []) : ¬ server.Replied client code := by
  intro replied
  rw [Replied, silent] at replied
  cases replied

end Server

/-- Whatever the error, a client whose connect request fails never gets a reply:
its session is deleted and its connection closed by the step that learns of it. -/
theorem connect_error_unanswered {config : Config} {server next : Server} {client : SessionId}
    {label : Label} {errno : Int} (reached : (eventLoop config).Reachable server)
    (fails : server.ConnectFails client errno label) (stepped : Server.Step server label next) :
    (∀ session, server.sessions.get? client = some session → session.fd ∉ next.files) ∧
      ∀ later, (eventLoop config).Leads next later →
        ¬ later.Replied client (Call.errnoCode errno) ∧ later.sessions.get? client = none ∧
          answered (later.transfersOf client) = [] := by
  have wellFormed := reachable_wellFormed reached
  refine ⟨fun session live => ?_, fun later leads => ?_⟩
  · have gone := (fails.forever reached stepped .refl).1
    exact ((wellFormed.releases (wellFormed.moves stepped) client session live).1 gone).2
  · obtain ⟨gone, silent⟩ := fails.forever reached stepped leads
    exact ⟨Server.not_replied_of_unanswered silent, gone, silent⟩

/-- A connection request whose connect request is in flight. -/
private def connecting : List Label := Label.relaying.take 4

/-- `ECONNREFUSED` on the connect request. -/
private def refusing : Label := .complete 1 (-111) [] .none

theorem connect_error_unanswered_refused :
    ∃ server next label, (eventLoop (.single true)).Reachable server ∧
      server.ConnectFails 0 111 label ∧ Server.Step server label next ∧
      ¬ next.Replied 0 0x05 := by
  obtain ⟨server, next, reached, stepped, shown⟩ := Server.exists_step (.single true) connecting
    refusing (fun _ _ => true) (fun server _ => server.ConnectFails 0 111 refusing)
    (fun _ _ _ _ => trivial) (by decide)
  have fails := of_decide_eq_true shown
  exact ⟨server, next, refusing, reached, fails, stepped,
    ((connect_error_unanswered reached fails stepped).2 next .refl).1⟩

/-- The reply that the code of `ECONNREFUSED` calls for never comes. -/
theorem connect_error_replied_refused :
    ¬ ∀ (config : Config) (server next : Server) (client : SessionId) (label : Label)
      (errno : Int), (eventLoop config).Reachable server →
        server.ConnectFails client errno label → Server.Step server label next →
        ∃ later, (eventLoop config).Leads next later ∧
          later.Replied client (Call.errnoCode errno) := by
  intro always
  obtain ⟨server, next, reached, stepped, shown⟩ := Server.exists_step (.single true) connecting
    refusing (fun _ _ => true) (fun server _ => server.ConnectFails 0 111 refusing)
    (fun _ _ _ _ => trivial) (by decide)
  have fails := of_decide_eq_true shown
  obtain ⟨later, leads, replied⟩ := always _ server next 0 refusing 111 reached fails stepped
  have silent := (fails.forever reached stepped leads).2
  exact Server.not_replied_of_unanswered silent replied

end ModernCppHw.Socks5
