import ModernCppHw.Socks5.Negotiation
import ModernCppHw.Socks5.Relay

/-! What a destination is sent against what its client sent after asking for it.
What a client sends ahead, before it is told of the connection, is held back in
the read buffer and never taken out again. -/

set_option autoImplicit false

namespace ModernCppHw.Socks5

/-- The bytes of the transfers of one kind, in order. -/
def crossed (type : EventType) (transfers : List Transfer) : List Byte :=
  (transfers.filter fun transfer => transfer.type = type).flatMap (·.bytes)

theorem crossed_transferred {server : Server} {event : Event} {session : Session} {sqe : Sqe}
    {res : Int} {data : List Byte} (type : EventType) (transfers : List Transfer) :
    crossed type (transfers ++ server.transferred event session sqe res data) =
      crossed type transfers ++
        if 0 ≤ res ∧ event.type = type then server.moved sqe res.toNat data else [] := by
  unfold crossed Server.transferred
  by_cases failing : res < 0
  · simp [failing, Int.not_le.mpr failing]
  · by_cases same : event.type = type <;> simp [failing, Int.not_lt.mp failing, same]

/-- What was read of a client is its handshake and then its payloads, and what was
written to its destination was written while relaying. -/
structure Accounted (transfers : List Transfer) : Prop where
  received : crossed .clientRead transfers =
    handshake transfers ++ (Direction.up.progress transfers).read
  forwarded : crossed .destinationWrite transfers = (Direction.up.progress transfers).written

namespace Session

variable {isRoot : Bool} {session : Session} {requests : List Request} {request : Request}

theorem Consistent.types_of_early (consistent : session.Consistent isRoot requests)
    (early : session.state ≠ .proxyingRequests) (member : request ∈ requests) :
    request.type ≠ .destinationWrite ∧
      (request.type = .clientRead → session.state.BeforeConnect) := by
  cases consistent with
  | reading inPhase =>
      cases List.mem_singleton.mp member
      exact ⟨nofun, fun _ => inPhase.state ▸ Phase.state_beforeConnect _⟩
  | replying | connecting | granting | refusing =>
      cases List.mem_singleton.mp member
      exact ⟨nofun, nofun⟩
  | stalled | leaked => cases member
  | proxying state | draining state => exact absurd state early

end Session

namespace Server

variable {server next : Server} {client : SessionId} {label : Label} {index : Nat} {sqe : Sqe}
  {res : Int} {data : List Byte} {answers : Answers} {event : Event} {session : Session}
  {rest : List Request}

theorem Concerns.accounted
    (concerns : server.Concerns index sqe res data answers event session rest)
    (early : session.state ≠ .proxyingRequests →
      Direction.up.progress (server.transfersOf event.client) = {})
    (law : Accounted (server.transfersOf event.client)) :
    Accounted (server.transfersOf event.client ++
      server.transferred event session sqe res data) := by
  have own := concerns.member
  by_cases failing : res < 0
  · rw [transferred, if_pos failing, List.append_nil]
    exact law
  have succeeded := Int.not_lt.mp failing
  by_cases proxying : session.state = .proxyingRequests
  · have beyond : ¬ session.state.BeforeConnect := fun before => before.2 proxying
    by_cases reading : event.type = Direction.up.readType
    · have other : ¬ event.type = .destinationWrite := reading ▸ by decide
      constructor
      · rw [crossed_transferred, if_pos ⟨succeeded, reading⟩,
          handshake_of_other _ (.inr (.inl beyond)),
          Direction.progress_of_read _ proxying reading succeeded, law.received, List.append_assoc]
        rfl
      · rw [crossed_transferred, if_neg fun both => other both.2, List.append_nil,
          Direction.progress_of_read _ proxying reading succeeded, law.forwarded]
        rfl
    by_cases writing : event.type = Direction.up.writeType
    · constructor
      · rw [crossed_transferred, if_neg fun both => reading both.2, List.append_nil,
          handshake_of_other _ (.inl reading),
          Direction.progress_of_write _ proxying writing succeeded, law.received]
        rfl
      · rw [crossed_transferred, if_pos ⟨succeeded, writing⟩,
          Direction.progress_of_write _ proxying writing succeeded, law.forwarded]
        rfl
    · have idle : ¬ Direction.up.Includes event.type := not_or.mpr ⟨reading, writing⟩
      constructor
      · rw [crossed_transferred, if_neg fun both => reading both.2, List.append_nil,
          handshake_of_other _ (.inl reading), Direction.progress_of_other _ (.inr (.inl idle)),
          law.received]
      · rw [crossed_transferred, if_neg fun both => writing both.2, List.append_nil,
          Direction.progress_of_other _ (.inr (.inl idle)), law.forwarded]
  · obtain ⟨silent, reads⟩ := concerns.consistent.types_of_early proxying own
    have start := early proxying
    have received := law.received
    have forwarded := law.forwarded
    rw [start] at received forwarded
    constructor
    · rw [crossed_transferred, Direction.progress_of_other _ (.inl proxying), start, received]
      by_cases reading : event.type = .clientRead
      · rw [if_pos ⟨succeeded, reading⟩, handshake_of_read _ reading (reads reading) succeeded]
        simp
      · rw [if_neg fun both => reading both.2, handshake_of_other _ (.inl reading)]
        simp
    · rw [crossed_transferred, Direction.progress_of_other _ (.inl proxying), start, forwarded,
        if_neg fun both => silent both.2, List.append_nil]

/-- Each write to a destination that is no error takes all it was to take. -/
def WritesWhole (server : Server) : Label → Prop
  | .complete index res _ _ =>
      ∀ found ∈ server.concerned index, found.event.type = .destinationWrite → 0 ≤ res →
        res = found.sqe.operation.region.length
  | .carry _ _ => True

/-- A session is done telling its client of the connection, and begins to relay, with
bytes of the client held back. -/
def BeginsEarly (server : Server) : Label → Prop
  | .complete index res _ _ =>
      ∃ found ∈ server.concerned index, found.session.state = .connectingToDestination ∧
        found.event.type = .clientWrite ∧ res = found.session.writeClientBuffer.length ∧
        found.session.readBuffer ≠ []
  | .carry _ _ => False

instance (server : Server) (label : Label) : Decidable (server.WritesWhole label) :=
  match label with
  | .complete .. | .carry .. => by unfold WritesWhole; infer_instance

instance (server : Server) (label : Label) : Decidable (server.BeginsEarly label) :=
  match label with
  | .complete .. | .carry .. => by unfold BeginsEarly; infer_instance

/-- All that was read of a client. -/
def received (server : Server) (client : SessionId) : List Byte :=
  crossed .clientRead (server.transfersOf client)

/-- All that was written to a client's destination. -/
def forwarded (server : Server) (client : SessionId) : List Byte :=
  crossed .destinationWrite (server.transfersOf client)

/-- What was written to a client's destination are the first of the bytes that follow
the client's request, and all of them where the client is read again. -/
structure Forwards (server : Server) (client : SessionId) : Prop where
  inOrder : ∀ destination following,
    Matches (server.received client) destination following →
      server.forwarded client <+: following
  unasked : (∀ destination following, ¬ Matches (server.received client) destination following) →
    server.forwarded client = []
  caughtUp : ∀ session, server.sessions.get? client = some session →
    session.state = .proxyingRequests → ∀ request ∈ server.requestsOf client,
      request.type = .clientRead → ∀ destination following,
        Matches (server.received client) destination following →
          server.forwarded client = following

end Server

/-- Relaying begins when the client has been told of the connection, and it leaves
what is held back as it is. -/
theorem Reacts.begins {env : Env} {call after : Call} {res : Int} {request : Request}
    {rest : List Request} (reacted : Reacts env call res request rest (.ok (after, false)))
    (early : call.self.state ≠ .proxyingRequests) (state : after.self.state = .proxyingRequests) :
    call.self.state = .connectingToDestination ∧ request.type = .clientWrite ∧ 0 ≤ res ∧
      res.toNat = call.self.writeClientBuffer.length ∧
      after.self.readBuffer = call.self.readBuffer := by
  generalize ended : Except.ok (after, false) = result at reacted
  cases reacted with
  | lost before =>
      obtain ⟨files, -, -, rfl⟩ := Call.failImmediately_ok (kept_ok ended.symm).1
      exact absurd state before.2
  | decoded _ _ _ _ _ handled | methodSent _ _ _ _ _ _ handled =>
      obtain ⟨rfl, -⟩ := kept_ok ended.symm
      exact absurd state handled.notProxying
  | refusalSent before =>
      cases ended
      exact absurd state before.2
  | methodGoesOn early | connected early | grantGoesOn early =>
      cases ended
      exact absurd (early.symm.trans state) nofun
  | deleted => cases ended
  | granted connecting _ _ _ succeeded whole =>
      cases ended
      refine ⟨connecting, rfl, succeeded, whole, ?_⟩
      simp only [Call.beginProxying]
      split <;> rfl
  | hungUp proxying | upRead proxying | upWritten proxying | upGoesOn proxying
  | downRead proxying | downWritten proxying | downGoesOn proxying => exact absurd proxying early

namespace Server

variable {config : Config} {server next : Server} {client : SessionId} {label : Label}

open Transition

theorem reachable_unheld (reached : (eventLoop config).ReachableWhen
      (fun server label => ¬ server.BeginsEarly label) server) :
    ∀ client session, server.sessions.get? client = some session →
      session.state = .proxyingRequests → session.readBuffer = [] := by
  refine reachable_connection (fun connection =>
    connection.session.state = .proxyingRequests → connection.session.readBuffer = []) ?_ reached
  intro server label client connection earlier _ passes lawful evolves state
  cases evolves with
  | opened => cases state
  | undisturbed live same =>
      rw [same.session] at state ⊢
      exact lawful _ live state
  | filled _ _ _ live | collected _ _ _ live => exact lawful _ live state
  | @completed index sqe res data answers event session rest after concerns owner returned =>
      subst owner
      by_cases relaying : session.state = .proxyingRequests
      · have negotiating := reachable_negotiating earlier _ _ concerns.live
        have beyond : ¬ session.state.BeforeConnect := fun before => before.2 relaying
        cases concerns.negotiates negotiating returned with
        | decided _ _ before | lost before | written before => exact absurd before beyond
        | connected _ _ _ held => exact held.trans (lawful _ concerns.live relaying)
      · obtain ⟨connecting, writing, succeeded, whole, held⟩ :=
          (concerns.reacted returned).begins relaying state
        refine held.trans (by_contra fun some => passes ⟨_, concerns.concerned, connecting,
          writing, ?_, some⟩)
        have counted : res.toNat = session.writeClientBuffer.length := whole
        change res = session.writeClientBuffer.length
        omega

theorem reachable_accounted (reached : (eventLoop config).Reachable server) :
    ∀ client, Accounted (server.transfersOf client) := by
  refine reached.invariant (fun state => ∀ client, Accounted (state.transfersOf client))
    (fun state started client => ?_) fun state label next earlier lawful _ stepped client => ?_
  · rw [started]
    exact ⟨rfl, rfl⟩
  · rcases ((reachable_wellFormed earlier).moves stepped).records client with same |
      ⟨index, sqe, res, data, answers, event, session, rest, -, rfl, concerns, added⟩
    · rw [same]
      exact lawful client
    · rw [added]
      refine concerns.accounted (fun early => ?_) (lawful _)
      exact (reachable_agrees earlier .up _ _ concerns.live).early early

/-- A client that is relayed for has asked for its destination, and what it sent before
relaying began ends with the request. -/
theorem matches_of_relaying (reached : (eventLoop config).ReachableWhen
      (fun server label => ¬ server.BeginsEarly label) server) {session : Session}
    (live : server.sessions.get? client = some session)
    (relaying : session.state = .proxyingRequests) :
    ∃ destination, Matches (handshake (server.transfersOf client)) destination [] := by
  have beyond : ¬ session.state.BeforeConnect := fun before => before.2 relaying
  have unheld : session.readBuffer = [] := reachable_unheld reached _ _ live relaying
  cases reachable_negotiating reached.reachable _ _ live with
  | reading inPhase => exact absurd (inPhase.state ▸ Phase.state_beforeConnect _) beyond
  | replying state => exact absurd (state ▸ (Phase.methods 0).state_beforeConnect) beyond
  | halted before => exact absurd before beyond
  | @connected destination _ _ tells =>
      have decided := tells.decodeStream_eq nofun
      change decodeStream _ = .connect destination session.readBuffer at decided
      rw [unheld] at decided
      exact ⟨destination, decodeStream_eq_connect_iff.mp decided⟩

theorem reachable_asked (reached : (eventLoop config).ReachableWhen
      (fun server label => ¬ server.BeginsEarly label) server) :
    ∀ client, Direction.up.progress (server.transfersOf client) = {} ∨
      ∃ destination, Matches (handshake (server.transfersOf client)) destination [] := by
  induction reached with
  | start started =>
      rw [started]
      exact fun client => .inl rfl
  | @step state next label earlier passes stepped ih =>
      intro client
      rcases ((reachable_wellFormed earlier).moves stepped).records client with same |
        ⟨index, sqe, res, data, answers, event, session, rest, -, rfl, concerns, added⟩
      · rw [same]
        exact ih client
      · rw [added]
        by_cases relaying : session.state = .proxyingRequests
        · have beyond : ¬ session.state.BeforeConnect := fun before => before.2 relaying
          rw [handshake_of_other _ (.inr (.inl beyond))]
          exact .inr (matches_of_relaying earlier concerns.live relaying)
        · rw [Direction.progress_of_other _ (.inl relaying)]
          exact .inl ((reachable_agrees earlier.reachable .up _ _ concerns.live).early relaying)

theorem matches_received (reached : (eventLoop config).Reachable server) {destination : Destination}
    (asked : Matches (handshake (server.transfersOf client)) destination []) :
    Matches (server.received client) destination
      (Direction.up.progress (server.transfersOf client)).read := by
  rw [received, (reachable_accounted reached client).received]
  exact asked.append _

theorem mem_of_concerned {index : Nat} {found : Concerned}
    (concerned : server.concerned index = some found) :
    (⟨found.event.type, found.sqe.operation⟩ : Request) ∈
      server.requestsOf found.event.client := by
  obtain ⟨sqe, inFlight, later⟩ := Option.bind_eq_some_iff.mp concerned
  obtain ⟨event, owned, later⟩ := Option.bind_eq_some_iff.mp later
  obtain ⟨session, live, same⟩ := Option.bind_eq_some_iff.mp later
  cases same
  exact mem_requestsOf.mpr ⟨sqe, List.mem_of_getElem? inFlight, event, owned, rfl, rfl⟩

theorem WritesWhole.finishes (reached : (eventLoop config).Reachable server)
    (whole : server.WritesWhole label) {session : Session} {count : Nat}
    (live : server.sessions.get? client = some session)
    (proxying : session.state = .proxyingRequests) (takes : server.Takes client .up count label) :
    count + (Direction.up.progress (server.transfersOf client)).taken.length =
      (Direction.up.progress (server.transfersOf client)).payload.length := by
  cases label with
  | carry => exact absurd takes id
  | complete index res data answers =>
      obtain ⟨found, concerned, -, named, rfl⟩ := takes
      have writing : found.event.type = .destinationWrite := congrArg Event.type named
      have owner : found.event.client = client := congrArg Event.client named
      have full := whole found concerned writing (Int.natCast_nonneg count)
      have member := mem_of_concerned concerned
      rw [owner] at member
      have sends := ((reachable_agrees reached .up client session live).writing proxying _ member
        writing).remaining
      change found.sqe.operation.region.length + (Direction.up.progress _).taken.length =
        (Direction.up.progress _).payload.length at sends
      rw [Int.ofNat_inj.mp full]
      exact sends

theorem reachable_faithful (reached : (eventLoop config).ReachableWhen
      (fun server label => server.WritesWhole label ∧ ¬ server.Overwrites .up label) server) :
    ∀ client, let progress := Direction.up.progress (server.transfersOf client)
      progress.Faithful ∧ (progress.taken = [] ∨ progress.taken = progress.payload) := by
  induction reached with
  | start started =>
      rw [started]
      exact fun client => ⟨Progress.Faithful.start, .inl rfl⟩
  | @step state next label earlier passes stepped ih =>
      intro client
      have records := ((reachable_wellFormed earlier).moves stepped).progress client .up
      have intact := earlier.weaken fun _ _ both => both.2
      generalize Direction.up.progress (next.transfersOf client) = progress at records
      cases records with
      | silent => exact ih client
      | read live proxying member reading =>
          have whole := (reachable_agrees earlier.reachable .up client _ live).reading proxying _
            member reading
          exact ⟨(ih client).1.reads whole _, .inl rfl⟩
      | @wrote session request count chunk live proxying member writing takes takings =>
          obtain ⟨faithful, begun⟩ := ih client
          have finishes := WritesWhole.finishes earlier.reachable passes.1 live proxying takes
          have straight : ¬ state.Differs client .up count := by
            apply not_not.mpr
            rcases begun with fresh | finished
            · rw [fresh, List.length_nil, List.drop_zero]
            · have none : count = 0 := by
                rw [finished] at finishes
                omega
              rw [none, List.take_zero, List.take_zero]
          have later := (faithful_writes_iff intact live proxying member writing takings
            faithful).mpr straight
          refine ⟨later, .inr (later.taken.eq_of_length ?_)⟩
          obtain ⟨rfl, -⟩ := takings_eq intact live proxying member writing takings
          simp only [Progress.writes, List.length_append, List.length_take]
          omega

end Server

open Transition

/-- In a run in which writes to destinations complete in full, no session begins to
relay with bytes of its client held back, and nothing is stored over what a write to a
destination is to send or a read of a relaying client has brought, every destination is sent
the bytes that follow its client's request, in order, and all that were read before the
client is read again. -/
theorem client_bytes_forwarded {config : Config} {server : Server}
    (reached : (eventLoop config).ReachableWhen
      (fun server label => server.WritesWhole label ∧ ¬ server.BeginsEarly label ∧
        ¬ server.Overwrites .up label) server) :
    ∀ client, server.Forwards client := by
  intro client
  obtain ⟨faithful, -⟩ := Server.reachable_faithful
    (reached.weaken fun _ _ allowed => ⟨allowed.1, allowed.2.2⟩) client
  have patient : (eventLoop config).ReachableWhen
      (fun server label => ¬ server.BeginsEarly label) server :=
    reached.weaken fun _ _ allowed => allowed.2.1
  have forwarded : server.forwarded client = _ :=
    (Server.reachable_accounted reached.reachable client).forwarded
  obtain ⟨earlier, read, written⟩ := faithful.written
  rcases Server.reachable_asked patient client with none | ⟨destination, asked⟩
  · rw [none] at forwarded
    refine ⟨fun _ _ _ => forwarded ▸ List.nil_prefix, fun _ => forwarded,
      fun session live relaying _ _ _ destination following matched => ?_⟩
    obtain ⟨other, asked⟩ := Server.matches_of_relaying patient live relaying
    have follows := (matched.unique (Server.matches_received reached.reachable asked)).2
    rw [none] at follows
    exact forwarded.trans follows.symm
  · have follows := Server.matches_received reached.reachable asked
    refine ⟨fun other following matched => ?_, fun unmatched => absurd follows (unmatched _ _),
      fun session live relaying request member reading other following matched => ?_⟩
    · rw [(matched.unique follows).2, forwarded, read, written]
      exact (List.prefix_append_right_inj _).mpr faithful.taken
    · have agrees := reachable_agrees reached.reachable .up client session live
      have whole := faithful.taken.eq_of_length (agrees.reading relaying request member reading)
      rw [(matched.unique follows).2, forwarded, read, written, whole]

/-- Three bytes follow the request once relaying has begun. -/
theorem client_bytes_forwarded_relaying :
    ∃ server, (eventLoop (.single true)).ReachableWhen
        (fun server label => server.WritesWhole label ∧ ¬ server.BeginsEarly label ∧
          ¬ server.Overwrites .up label) server ∧
      server.forwarded 0 = [7, 8, 9] ∧ server.Forwards 0 := by
  obtain ⟨server, reached, shown⟩ := Server.exists_reachable (.single true)
    (Label.relaying ++ [.complete 2 3 [7, 8, 9] .none, .complete 2 3 [] .none])
    (fun server label => server.WritesWhole label ∧ ¬ server.BeginsEarly label ∧
      ¬ server.Overwrites .up label)
    (fun server => server.forwarded 0 = [7, 8, 9])
    (fun _ _ _ => of_decide_eq_true) (by decide)
  exact ⟨server, reached, of_decide_eq_true shown, client_bytes_forwarded reached 0⟩

/-- Of the bytes `7` and `8` after the request, the first comes with the request and
only the second is sent on. -/
theorem early_bytes_withheld :
    ¬ ∀ (config : Config) (server : Server),
      (eventLoop config).ReachableWhen Server.WritesWhole server →
        ∀ client, server.Forwards client := by
  intro always
  obtain ⟨server, reached, shown⟩ := Server.exists_reachable (.single true)
    (Label.relaying.take 3 ++
      [.complete 1 11 [5, 1, 0, 1, 127, 0, 0, 1, 0, 80, 7] ⟨fun _ => .failure, .created 6⟩,
        .complete 1 0 [] .none, .complete 1 10 [] .none, .complete 2 0 [] .none,
        .complete 2 1 [8] .none, .complete 2 1 [] .none])
    (fun server label => server.WritesWhole label)
    (fun server => server.forwarded 0 = [8] ∧ decodeStream (server.received 0) =
      .connect (.ipv4 ⟨[127, 0, 0, 1], rfl⟩ ⟨[0, 80], rfl⟩) [7, 8])
    (fun _ _ _ => of_decide_eq_true) (by decide)
  obtain ⟨forwarded, decoded⟩ := of_decide_eq_true shown
  have inOrder := (always _ server reached 0).inOrder _ _ (decodeStream_eq_connect_iff.mp decoded)
  rw [forwarded] at inOrder
  exact absurd inOrder (by decide)

end ModernCppHw.Socks5
