import ModernCppHw.Socks5.Preservation

/-! One session as a run shows it, and how a step changes what is shown. A step
that is not the session's own leaves its part of the memory, its requests and
its record alone, so a law of single sessions is kept by the steps of others. -/

set_option autoImplicit false

namespace ModernCppHw.Socks5

structure Connection where
  session : Session
  requests : List Request
  buffers : Memory Byte
  transfers : List Transfer
  deliveries : List Delivery
  /-- The bytes moved so far for the requests in flight, by their types. -/
  underway : EventType → List Byte

/-- The kernel has moved more bytes for the request of a type. -/
def Connection.carry (connection : Connection) (type : EventType) (data : List Byte) :
    Connection :=
  { connection with
    underway := fun other =>
      if other = type then connection.underway type ++ data else connection.underway other }

namespace Server

def transfersOf (server : Server) (client : SessionId) : List Transfer :=
  server.transfers.filter fun transfer => transfer.client = client

def deliveriesOf (server : Server) (client : SessionId) : List Delivery :=
  server.deliveries.filter fun delivery => delivery.client = client

def connection (server : Server) (client : SessionId) (session : Session) : Connection where
  session := session
  requests := server.requestsOf client
  buffers := server.bufferPool.buffers
  transfers := server.transfersOf client
  deliveries := server.deliveriesOf client
  underway := fun type => server.underway ⟨client, type⟩

end Server

/-- Nothing of the session has changed. -/
structure Connection.Undisturbed (before after : Connection) : Prop where
  session : after.session = before.session
  requests : after.requests.Perm before.requests
  memory : Memory.AgreeOn before.session.block before.buffers after.buffers
  transfers : after.transfers = before.transfers
  deliveries : after.deliveries = before.deliveries
  underway : after.underway = before.underway

namespace Server

/-- What a step makes of the session `client`. -/
inductive Evolves (server : Server) (client : SessionId) : Label → Connection → Prop where
  | opened {label : Label} {fd : Fd} {bufferIndex : Nat} {buffers : Memory Byte} :
      server.sessions.get? client = none →
      Evolves server client label
        ⟨Session.accepted fd bufferIndex,
          [(Session.accepted fd bufferIndex).clientReadRequest server.config.isRoot],
          buffers, [], [], fun _ => []⟩
  | undisturbed {label : Label} {session : Session} {connection : Connection} :
      server.sessions.get? client = some session →
      (server.connection client session).Undisturbed connection →
      Evolves server client label connection
  | filled {index : Nat} {sqe : Sqe} {event : Event} {session : Session} {fd : Fd}
      {buffer : Region} {offset : Nat} {bufferIndex : Option Nat} {data : List Byte} :
      server.ring[index]? = some sqe → server.owner sqe = some event → event.client = client →
      server.sessions.get? client = some session →
      ⟨event.type, sqe.operation⟩ ∈ server.requestsOf client →
      sqe.operation = .read fd buffer offset bufferIndex →
      (server.underwayFor sqe).length + data.length ≤ buffer.length →
      Evolves server client (.carry index data)
        { (server.connection client session).carry event.type data with
          buffers := server.bufferPool.buffers.store
            (buffer.address + (server.underwayFor sqe).length) data
          deliveries := server.deliveriesOf client ++
            [⟨client, buffer.address + (server.underwayFor sqe).length, data⟩] }
  | collected {index : Nat} {sqe : Sqe} {event : Event} {session : Session} {fd : Fd}
      {buffer : Region} {offset : Nat} {bufferIndex : Option Nat} {data : List Byte} :
      server.ring[index]? = some sqe → server.owner sqe = some event → event.client = client →
      server.sessions.get? client = some session →
      ⟨event.type, sqe.operation⟩ ∈ server.requestsOf client →
      sqe.operation = .write fd buffer offset bufferIndex →
      (server.underwayFor sqe).length + data.length ≤ buffer.length →
      data = server.upcoming sqe buffer data.length →
      Evolves server client (.carry index data)
        ((server.connection client session).carry event.type data)
  | completed {index : Nat} {sqe : Sqe} {res : Int} {data : List Byte} {answers : Answers}
      {event : Event} {session : Session} {rest : List Request} {after : Call} :
      server.Concerns index sqe res data answers event session rest → event.client = client →
      Call.react (server.env answers) event.type res
        ((server.retire index sqe res data).callOn session) = .ok (after, false) →
      Evolves server client (.complete index res data answers)
        ⟨after.self, rest ++ after.submitted, after.buffers,
          server.transfersOf client ++ server.transferred event session sqe res data,
          server.deliveriesOf client ++ server.delivered event sqe res data,
          fun type => if type = event.type then [] else server.underway ⟨client, type⟩⟩

/-- The session of a completion, once it has reacted and was not deleted. -/
abbrev afterwards (server : Server) (event : Event) (session : Session) (sqe : Sqe) (res : Int)
    (data : List Byte) (rest : List Request) (after : Call) : Connection where
  session := after.self
  requests := rest ++ after.submitted
  buffers := after.buffers
  transfers := server.transfersOf event.client ++ server.transferred event session sqe res data
  deliveries := server.deliveriesOf event.client ++ server.delivered event sqe res data
  underway := fun type =>
    if type = event.type then [] else server.underway ⟨event.client, type⟩

variable {server next : Server} {client other : SessionId} {session : Session} {label : Label}

theorem filter_records {Record : Type} (clientOf : Record → SessionId) {records : List Record}
    (all : ∀ record ∈ records, clientOf record = client) (other : SessionId) :
    (records.filter fun record => clientOf record = other) =
      if client = other then records else [] := by
  split
  · next same =>
      refine List.filter_eq_self.mpr fun record member => ?_
      simp [all record member, same]
  · next different =>
      refine List.filter_eq_nil_iff.mpr fun record member => ?_
      simp [all record member, different]

theorem transfersOf_extend {added : List Transfer}
    (extended : next.transfers = server.transfers ++ added)
    (all : ∀ transfer ∈ added, transfer.client = client) (other : SessionId) :
    next.transfersOf other =
      server.transfersOf other ++ if client = other then added else [] := by
  rw [transfersOf, extended, List.filter_append, filter_records Transfer.client all]
  rfl

theorem deliveriesOf_extend {added : List Delivery}
    (extended : next.deliveries = server.deliveries ++ added)
    (all : ∀ delivery ∈ added, delivery.client = client) (other : SessionId) :
    next.deliveriesOf other =
      server.deliveriesOf other ++ if client = other then added else [] := by
  rw [deliveriesOf, extended, List.filter_append, filter_records Delivery.client all]
  rfl

theorem Concerns.concerned {index : Nat} {sqe : Sqe} {res : Int} {data : List Byte}
    {answers : Answers} {event : Event} {rest : List Request}
    (concerns : server.Concerns index sqe res data answers event session rest) :
    server.concerned index = some ⟨sqe, event, session⟩ := by
  simp [Server.concerned, concerns.completes.inFlight, concerns.owned, concerns.live]

theorem Completes.concerned_none {index : Nat} {sqe : Sqe} {res : Int} {data : List Byte}
    {answers : Answers} (completes : server.Completes index sqe res data answers)
    (unowned : sqe.userData = none) : server.concerned index = none := by
  simp [Server.concerned, completes.inFlight, owner, unowned]

theorem Serves.transfersOf {index : Nat} {sqe : Sqe} {res : Int} {data : List Byte}
    {answers : Answers} {event : Event} {rest : List Request} {after : Call} {deleted : Bool}
    (serves : server.Serves index sqe res data answers event session rest after deleted next)
    (client : SessionId) :
    next.transfersOf client = server.transfersOf client ++
      if event.client = client then server.transferred event session sqe res data else [] :=
  transfersOf_extend (serves.transfers.trans
    (retire_transfers_of_owned serves.owned serves.live res data))
    (fun _ => client_of_transferred) client

theorem Serves.deliveriesOf {index : Nat} {sqe : Sqe} {res : Int} {data : List Byte}
    {answers : Answers} {event : Event} {rest : List Request} {after : Call} {deleted : Bool}
    (serves : server.Serves index sqe res data answers event session rest after deleted next)
    (client : SessionId) :
    next.deliveriesOf client = server.deliveriesOf client ++
      if event.client = client then server.delivered event sqe res data else [] :=
  deliveriesOf_extend (serves.deliveries.trans (retire_deliveries serves.owned res data))
    (fun _ => client_of_delivered) client

theorem Serves.connection {index : Nat} {sqe : Sqe} {res : Int} {data : List Byte}
    {answers : Answers} {event : Event} {rest : List Request} {after : Call} {deleted : Bool}
    (serves : server.Serves index sqe res data answers event session rest after deleted next) :
    next.connection event.client after.self =
      server.afterwards event session sqe res data rest after := by
  have transfers := serves.transfersOf event.client
  have deliveries := serves.deliveriesOf event.client
  rw [if_pos rfl] at transfers deliveries
  have underway : (fun type => next.underway ⟨event.client, type⟩) =
      fun type => if type = event.type then [] else server.underway ⟨event.client, type⟩ :=
    funext fun type => serves.underway ▸ setUnderway_own serves.owned [] type
  rw [Server.connection, serves.own, serves.memory, transfers, deliveries, underway]

/-- A step adds to a client's record only what completes for the client's session,
which need not outlive it. -/
theorem Moves.records (moves : Moves server label next) (client : SessionId) :
    next.transfersOf client = server.transfersOf client ∨
      ∃ index sqe res data answers event session rest,
        label = .complete index res data answers ∧ event.client = client ∧
        server.Concerns index sqe res data answers event session rest ∧
        next.transfersOf client =
          server.transfersOf client ++ server.transferred event session sqe res data := by
  have accepting : ∀ {index : Nat} {sqe : Sqe} (res : Int) (data : List Byte),
      sqe.userData = none → (server.retire index sqe res data).transfers = server.transfers := by
    intro index sqe res data unowned
    have none : server.owner sqe = .none := by simp [owner, unowned]
    simp only [retire, record, none]
    split
    · rfl
    · cases sqe.operation <;> rfl
  cases moves with
  | filled | collected => exact .inl rfl
  | @acceptFailed index sqe res data answers completes unowned =>
      exact .inl (congrArg _ (accepting res data unowned))
  | @acceptRefused index sqe res data answers completes unowned =>
      exact .inl (congrArg _ (accepting res data unowned))
  | accepted _ _ _ _ frame =>
      rw [frame]
      exact .inl rfl
  | @served index sqe res data answers event session rest after deleted _ serves =>
      have transfers := serves.transfersOf client
      by_cases same : event.client = client
      · rw [if_pos same] at transfers
        exact .inr ⟨index, sqe, res, data, answers, event, session, rest, rfl, same,
          serves.toConcerns, transfers⟩
      · rw [if_neg same, List.append_nil] at transfers
        exact .inl transfers

/-- The kernel moves bytes for a request of one session only. -/
theorem connection_carry {sqe : Sqe} {event : Event} {data : List Byte}
    (owned : server.owner sqe = some event) (client : SessionId) (session : Session)
    (underway : next.underway = server.setUnderway sqe (server.underwayFor sqe ++ data)) :
    (fun type => next.underway ⟨client, type⟩) =
      if event.client = client then
        ((server.connection client session).carry event.type data).underway
      else (server.connection client session).underway := by
  funext type
  rw [underway]
  by_cases same : event.client = client
  · subst same
    rw [if_pos rfl, setUnderway_own owned, underwayFor_of_owned owned]
    rfl
  · rw [if_neg same, setUnderway_other owned _ (Ne.symm same)]
    rfl

/-- A step shows in each session it leaves alive as one of the five ways a
session can evolve. -/
theorem Moves.evolves (wellFormed : server.WellFormed) (moves : Moves server label next)
    (live : next.sessions.get? client = some session) :
    Evolves server client label (next.connection client session) := by
  cases moves with
  | @filled index sqe event found fd buffer offset bufferIndex data inFlight owned ownerLive reading
      bounded =>
      have member : (⟨event.type, sqe.operation⟩ : Request) ∈ server.requestsOf event.client :=
        mem_requestsOf.mpr ⟨sqe, List.mem_of_getElem? inFlight, event, owned, rfl, rfl⟩
      have named : ∀ delivery ∈ [(⟨event.client,
          buffer.address + (server.underwayFor sqe).length, data⟩ : Delivery)],
          delivery.client = event.client := by simp
      have deliveries := deliveriesOf_extend (deliver_deliveries owned buffer data) named client
      have underway := connection_carry owned client session
        (rfl : (server.deliver sqe buffer data).underway = _)
      by_cases same : event.client = client
      · subst same
        rw [if_pos rfl] at deliveries underway
        rw [connection, deliveries, underway]
        exact .filled inFlight owned rfl live member reading bounded
      · rw [if_neg same, List.append_nil] at deliveries
        rw [if_neg same] at underway
        exact .undisturbed live ⟨rfl, .refl _,
          wellFormed.deliver_agreeOn ownerLive member reading bounded live (Ne.symm same), rfl,
          deliveries, underway⟩
  | @collected index sqe event found fd buffer offset bufferIndex data inFlight owned ownerLive
      writing bounded taken =>
      have member : (⟨event.type, sqe.operation⟩ : Request) ∈ server.requestsOf event.client :=
        mem_requestsOf.mpr ⟨sqe, List.mem_of_getElem? inFlight, event, owned, rfl, rfl⟩
      have underway := connection_carry owned client session
        (rfl : (server.collect sqe data).underway = _)
      by_cases same : event.client = client
      · subst same
        rw [if_pos rfl] at underway
        rw [connection, underway]
        exact .collected inFlight owned rfl live member writing bounded taken
      · rw [if_neg same] at underway
        exact .undisturbed live ⟨rfl, .refl _, Memory.agreeOn_refl _ _, rfl, rfl, underway⟩
  | @acceptFailed index sqe res data answers completes unowned failing =>
      rw [retire_sessions] at live
      have deliveries : (server.retire index sqe res data).deliveries = server.deliveries := by
        simp [retire, failing]
      have buffers : (server.retire index sqe res data).bufferPool = server.bufferPool := by
        simp [retire, failing]
      refine .undisturbed live ⟨rfl, requestsOf_retire_accept completes.inFlight unowned res data _,
        ?_, ?_, ?_, ?_⟩
      all_goals simp [connection, transfersOf, deliveriesOf, deliveries, failing, buffers,
        Memory.agreeOn_refl, setUnderway_of_unowned unowned]
  | @acceptRefused index sqe res data answers completes unowned succeeded full =>
      have retired : server.retire index sqe res data =
          { server with ring := server.ring.eraseIdx index, files := res :: server.files } :=
        retire_accept (wellFormed.accepting sqe (List.mem_of_getElem? completes.inFlight) unowned)
          unowned succeeded
      have requests : ((server.retire index sqe res data).addClientAcceptRequest.requestsOf
          client).Perm (server.requestsOf client) := by
        rw [addClientAcceptRequest_requestsOf]
        exact requestsOf_retire_accept completes.inFlight unowned res data client
      have alive : server.sessions.get? client = some session := by
        simpa [addClientAcceptRequest, retired] using live
      refine .undisturbed alive ⟨rfl, requests, ?_, ?_, ?_, ?_⟩
      all_goals simp [connection, transfersOf, deliveriesOf, addClientAcceptRequest, retired,
        Memory.agreeOn_refl]
  | @accepted index sqe res data answers bufferIndex freeBuffers eventPool ring _ completes unowned
      succeeded free frame events accepts accepting requests =>
      have sessions : next.sessions =
          server.sessions.create (Session.accepted res bufferIndex) := by rw [frame]
      by_cases new : client = server.sessions.next
      · subst new
        rw [sessions, Heap.get?_create_self] at live
        cases live
        have own := requests server.sessions.next
        rw [wellFormed.live _ (Heap.get?_next _), if_pos rfl, List.nil_append] at own
        have transfers : next.transfersOf server.sessions.next = [] := by
          rw [frame]
          refine List.filter_eq_nil_iff.mpr fun transfer member => ?_
          simpa using Nat.ne_of_lt (wellFormed.transferred transfer member)
        have deliveries : next.deliveriesOf server.sessions.next = [] := by
          rw [frame]
          refine List.filter_eq_nil_iff.mpr fun delivery member => ?_
          simpa using Nat.ne_of_lt (wellFormed.delivered delivery member)
        have underway : (fun type => next.underway ⟨server.sessions.next, type⟩) = fun _ => [] := by
          rw [frame]
          exact funext (wellFormed.underway_of_dead (Heap.get?_next _))
        rw [connection, List.perm_singleton.mp own, transfers, deliveries, underway]
        exact .opened (Heap.get?_next _)
      · rw [sessions, Heap.get?_create_of_ne new] at live
        have others : (next.requestsOf client).Perm (server.requestsOf client) := by
          simpa [Ne.symm new] using requests client
        refine .undisturbed live ⟨rfl, others, ?_, ?_, ?_, ?_⟩
        all_goals
          rw [frame]
          simp [connection, transfersOf, deliveriesOf, Memory.agreeOn_refl]
  | @served index sqe res data answers event found rest after deleted _ serves =>
      by_cases same : event.client = client
      · subst same
        obtain ⟨rfl, rfl⟩ := serves.get?_own live
        rw [serves.connection]
        exact .completed serves.toConcerns rfl serves.returned
      · have alive : server.sessions.get? client = some session :=
          serves.get?_other (Ne.symm same) ▸ live
        have otherTransfers := serves.transfersOf client
        have otherDeliveries := serves.deliveriesOf client
        rw [if_neg same, List.append_nil] at otherTransfers otherDeliveries
        have underway : (fun type => next.underway ⟨client, type⟩) =
            fun type => server.underway ⟨client, type⟩ := by
          rw [serves.underway]
          exact funext (setUnderway_other serves.owned [] (Ne.symm same))
        exact .undisturbed alive ⟨rfl, serves.others client (Ne.symm same),
          serves.agreeOn wellFormed alive (Ne.symm same), otherTransfers, otherDeliveries,
          underway⟩

end Server

open Transition

/-- A law of single sessions holds of every live session of every state a run
reaches, if each way a session can evolve keeps it. -/
theorem reachable_connection {config : Config} {allowed : Server → Label → Prop}
    (law : Connection → Prop)
    (evolves : ∀ server label client connection, (eventLoop config).Reachable server →
      server.WellFormed → allowed server label →
      (∀ session, server.sessions.get? client = some session →
        law (server.connection client session)) →
      server.Evolves client label connection → law connection)
    {server : Server} (reached : (eventLoop config).ReachableWhen allowed server) :
    ∀ client session, server.sessions.get? client = some session →
      law (server.connection client session) := by
  refine reached.invariant (fun state => ∀ client session,
    state.sessions.get? client = some session → law (state.connection client session))
    (fun state started client session live => ?_)
    fun state label next earlier lawful permitted stepped client session live => ?_
  · rw [started] at live
    have absent : (Server.start config).sessions.get? client = none := Heap.get?_empty
    rw [absent] at live
    cases live
  · have wellFormed := reachable_wellFormed earlier
    exact evolves state label client _ earlier wellFormed permitted (lawful client)
      ((wellFormed.moves stepped).evolves wellFormed live)

/-- A law of the single requests of sessions that have not hung up, kept where one
hangs up, holds of every request in flight. -/
theorem reachable_requests {config : Config} {allowed : Server → Label → Prop}
    (law : Session → Request → Prop)
    (given : ∀ session requests, session.Consistent config.isRoot requests →
      session.isFailed = false ∨ session.state.BeforeConnect →
      ∀ request ∈ requests, law session request)
    (kept : ∀ session awaited request, law session request →
      law (session.hungUp awaited) request)
    {server : Server} (reached : (eventLoop config).ReachableWhen allowed server) :
    ∀ client session, server.sessions.get? client = some session →
      ∀ request ∈ server.requestsOf client, law session request := by
  refine reachable_connection
    (fun connection => ∀ request ∈ connection.requests, law connection.session request) ?_ reached
  intro server label client connection earlier _ _ lawful evolves
  have rooted : server.config.isRoot = config.isRoot :=
    congrArg Config.isRoot (reachable_config earlier)
  cases evolves with
  | opened => exact given _ _ (rooted ▸ Server.accepted_consistent _ _ _) (.inl rfl)
  | undisturbed live same =>
      intro request member
      rw [same.session]
      exact lawful _ live request (same.requests.mem_iff.mp member)
  | filled _ _ _ live | collected _ _ _ live => exact lawful _ live
  | @completed index sqe res data answers event session rest after concerns owner returned =>
      subst owner
      have reacted := concerns.reacted returned
      by_cases going : after.self.isFailed = false ∨ after.self.state.BeforeConnect
      · have consistent : after.self.Consistent config.isRoot (rest ++ after.submitted) :=
          rooted ▸ reacted.consistent rfl
        exact given _ _ consistent going
      · obtain ⟨failed, beyond⟩ := not_or.mp going
        obtain ⟨-, -, none, awaited, same⟩ :=
          reacted.drains rfl (Bool.eq_true_of_not_eq_false failed) beyond
        intro request member
        rw [none, List.append_nil] at member
        rw [same]
        exact kept _ _ _ (lawful _ concerns.live request (concerns.left_member member))

end ModernCppHw.Socks5
