import ModernCppHw.Socks5.HandshakeOutcome
import ModernCppHw.Socks5.Selection

/-! How a client is told that its destination has been connected to. The address it is
told is put together from the session's fields, as the one that was connected to was. -/

set_option autoImplicit false

namespace ModernCppHw.Socks5

/-- An address as it stands in a request and in the answer to one: its type, the address
and the port. -/
def SockAddr.bytes : SockAddr → List Byte
  | .inet address port => 0x01 :: (address.toList ++ port.toList)
  | .inet6 address port => 0x04 :: (address.toList ++ port.toList)

theorem Call.grantMessage_eq (address : SockAddr) :
    Call.grantMessage address = [0x05, 0x00, 0x00] ++ address.bytes := by
  cases address <;> rfl

/-- An address that a request gives is told back as it stands there. -/
theorem Requests.drop_eq {destination : Destination} {request : List Byte} {address : SockAddr}
    {resolver : List Byte → Hostent} (requests : Requests destination request)
    (given : ∀ name port, destination ≠ .domainName name port)
    (resolved : (destination.resolve resolver).sockAddr? destination.port = some address) :
    request.drop 3 = address.bytes := by
  cases requests with
  | domainName => exact absurd rfl (given _ _)
  | ipv4 | ipv6 =>
      cases resolved
      rfl

theorem Handled.of_connecting {env : Env} {call after : Call} {decision : Decision}
    (handled : Handled env call decision (.ok after)) (fresh : call.submitted = [])
    (state : after.self.state = .connectingToDestination) :
    ∃ destination address fd, decision = .connect destination after.self.readBuffer ∧
      (env.resolve destination).sockAddr? destination.port = some address ∧
      after.self.Holds address ∧ after.submitted = [⟨.destinationConnect, .connect fd address⟩] := by
  generalize ended : Except.ok after = result at handled
  cases handled with
  | wait steady inPhase =>
      cases ended
      exact absurd state (inPhase.state ▸ Phase.state_beforeConnect _).1
  | close steady early =>
      obtain ⟨files, -, -, rfl⟩ := Call.failImmediately_ok ended.symm
      cases early.symm.trans state
  | selectMethod steady early | refuseMethods steady early | refuse steady early
  | unresolved steady early | socketException steady early =>
      cases ended
      cases early.symm.trans state
  | otherFamily steady early =>
      cases Call.unreachable_ok ended.symm
      cases early.symm.trans state
  | @connect destination self address fd steady holds resolved =>
      cases ended
      refine ⟨destination, address, fd, rfl, resolved, ?_, ?_⟩
      · cases address <;> exact holds
      · exact congrArg (· ++ [_]) fresh
  | socketError => cases ended

/-- A connect request that succeeds is followed by the first write of the answer. -/
theorem Reacts.of_connected {env : Env} {call after : Call} {res : Int} {request : Request}
    {rest : List Request} {deleted : Bool}
    (reacted : Reacts env call res request rest (.ok (after, deleted)))
    (fresh : call.submitted = []) (connects : request.type = .destinationConnect)
    (state : call.self.state = .connectingToDestination) (healthy : call.self.isFailed = false)
    (succeeded : 0 ≤ res) :
    deleted = false ∧ ∃ write, rest ++ after.submitted = [write] ∧ write.type = .clientWrite := by
  generalize ended : Except.ok (after, deleted) = result at reacted
  cases reacted with
  | lost before => exact absurd state before.1
  | deleted _ _ ending =>
      rcases ending with failing | failed
      · exact absurd failing (Int.not_lt.mpr succeeded)
      · cases healthy.symm.trans failed
  | connected =>
      cases ended
      exact ⟨rfl, _, congrArg (· ++ [_]) fresh, rfl⟩
  | hungUp proxying => cases proxying.symm.trans state
  | _ => cases connects

/-- A session that connects awaits its connect request or tells its client. -/
theorem Session.Consistent.single_of_connecting {isRoot : Bool} {session : Session}
    {requests : List Request} (consistent : session.Consistent isRoot requests)
    (connecting : session.state = .connectingToDestination) :
    session.isFailed = false ∧ ∃ request, requests = [request] ∧
      (request.type = .destinationConnect ∨ request.type = .clientWrite) := by
  cases consistent with
  | connecting _ _ healthy => exact ⟨healthy, _, rfl, .inl rfl⟩
  | granting _ _ healthy => exact ⟨healthy, _, rfl, .inr rfl⟩
  | reading inPhase =>
      exact absurd connecting (inPhase.state ▸ Phase.state_beforeConnect _).1
  | replying state | stalled state | proxying state | draining state =>
      cases state.symm.trans connecting
  | refusing before | leaked before => exact absurd connecting before.1

namespace Connection

/-- A client is sent the reply to its greeting, then the answer to its request, and only
then what is relayed to it. -/
structure Ordered (connection : Connection) : Prop where
  order : crossed .clientWrite connection.transfers =
    selected connection.transfers ++ answered connection.transfers ++ relayed connection.transfers
  early : connection.session.state ≠ .proxyingRequests → relayed connection.transfers = []
  ungreeted : ¬ connection.session.state.Greeted → answered connection.transfers = []

/-- Of the answer no byte is lost or repeated, from when the connect request is done. -/
structure Granted (connection : Connection) : Prop where
  granting : connection.session.state = .connectingToDestination →
    (∀ request ∈ connection.requests, request.type ≠ .destinationConnect) →
    ∃ address, connection.session.Holds address ∧
      answered connection.transfers ++ connection.session.writeClientBuffer =
        Call.grantMessage address
  granted : connection.session.state = .proxyingRequests →
    ∃ address, connection.session.Holds address ∧
      answered connection.transfers = Call.grantMessage address

end Connection

namespace Server

variable {config : Config} {server next : Server} {client : SessionId} {label : Label}
  {index : Nat} {sqe : Sqe} {res : Int} {data : List Byte} {answers : Answers} {event : Event}
  {session : Session} {rest : List Request} {after : Call}

open Transition

theorem Concerns.ordered (reached : (eventLoop config).Reachable server)
    (concerns : server.Concerns index sqe res data answers event session rest)
    (law : (server.connection event.client session).Ordered)
    (returned : Call.react (server.env answers) event.type res
      ((server.retire index sqe res data).callOn session) = .ok (after, false)) :
    (server.afterwards event session sqe res data rest after).Ordered := by
  have reacted := concerns.reacted returned
  have proxies : session.state = .proxyingRequests → after.self.state = .proxyingRequests :=
    reacted.proxying
  have greets : session.state.Greeted → after.self.state.Greeted := reacted.greeted
  have order : crossed .clientWrite (server.transfersOf event.client) =
      selected (server.transfersOf event.client) ++ answered (server.transfersOf event.client) ++
        relayed (server.transfersOf event.client) := law.order
  have early : session.state ≠ .proxyingRequests →
      relayed (server.transfersOf event.client) = [] := law.early
  have ungreeted : ¬ session.state.Greeted →
      answered (server.transfersOf event.client) = [] := law.ungreeted
  refine ⟨?_, fun later => ?_, fun later => ?_⟩
  · dsimp only
    rw [crossed_transferred, selected_completed, answered_completed, relayed_completed, order]
    by_cases writes : 0 ≤ res ∧ event.type = .clientWrite
    · obtain ⟨succeeded, writing⟩ := writes
      rw [if_pos ⟨succeeded, writing⟩]
      by_cases selecting : session.state = .readingAuthMethods
      · have waiting : session.state ≠ .proxyingRequests := by
          rw [selecting]
          decide
        rw [if_pos ⟨succeeded, writing, selecting⟩, if_neg fun counts => counts.2.2.1 selecting,
          if_neg fun counts => waiting counts.2.2, early waiting,
          ungreeted fun greeted => greeted.2 selecting]
        simp
      · by_cases proxying : session.state = .proxyingRequests
        · rw [if_neg fun counts => selecting counts.2.2, if_neg fun counts => counts.2.2.2 proxying,
            if_pos ⟨succeeded, writing, proxying⟩]
          simp
        · rw [if_neg fun counts => selecting counts.2.2,
            if_pos ⟨succeeded, writing, selecting, proxying⟩,
            if_neg fun counts => proxying counts.2.2, early proxying]
          simp
    · have idle : ∀ more, ¬ (0 ≤ res ∧ event.type = .clientWrite ∧ more) :=
        fun _ counts => writes ⟨counts.1, counts.2.1⟩
      rw [if_neg writes, if_neg (idle _), if_neg (idle _), if_neg (idle _)]
      simp
  · have waiting : session.state ≠ .proxyingRequests := fun same => later (proxies same)
    rw [relayed_completed, early waiting, if_neg fun counts => waiting counts.2.2]
    rfl
  · have before : ¬ session.state.Greeted := fun same => later (greets same)
    rw [answered_completed, ungreeted before, if_neg fun counts => ?_]
    · rfl
    · have own := concerns.member
      cases reachable_selecting reached _ _ concerns.live with
      | ungreeted law => cases counts.2.1.symm.trans (law.reads _ own)
      | answering law | ended law => exact counts.2.2.1 law.state
      | greeted law => exact before law.state

/-- A session that connects answers its client in parts, the first when it learns that it is
connected; once the last is written it relays. -/
theorem Concerns.granted_of_connecting (reached : (eventLoop config).Reachable server)
    (concerns : server.Concerns index sqe res data answers event session rest)
    (law : (server.connection event.client session).Granted)
    (connecting : session.state = .connectingToDestination)
    (returned : Call.react (server.env answers) event.type res
      ((server.retire index sqe res data).callOn session) = .ok (after, false)) :
    (server.afterwards event session sqe res data rest after).Granted := by
  have own := concerns.member
  have answering : session.state ≠ .readingAuthMethods := by
    rw [connecting]
    decide
  have early : session.state ≠ .proxyingRequests := by
    rw [connecting]
    decide
  have taken : 0 ≤ res → event.type = .clientWrite →
      answered (server.transfersOf event.client ++
        server.transferred event session sqe res data) =
          answered (server.transfersOf event.client) ++
            session.writeClientBuffer.take res.toNat := by
    intro succeeded writing
    rw [answered_completed, if_pos ⟨succeeded, writing, answering, early⟩,
      concerns.moved_of_early reached early writing succeeded]
  have pending : event.type = .clientWrite → ∃ address, session.Holds address ∧
      answered (server.transfersOf event.client) ++ session.writeClientBuffer =
        Call.grantMessage address := by
    intro writing
    have single := (content_of_early reached concerns.live early own writing).1
    refine law.granting connecting fun request member connects => ?_
    have among : request ∈ server.requestsOf event.client := member
    rw [single, List.mem_singleton] at among
    subst among
    cases writing.symm.trans connects
  have reacted := concerns.reacted returned
  generalize asked : (⟨event.type, sqe.operation⟩ : Request) = request at reacted own
  have type : event.type = request.type := congrArg Request.type asked
  generalize ended : Except.ok (after, false) = result at reacted
  cases reacted with
  | @connected socket _ holds =>
      cases ended
      refine ⟨fun _ _ => ⟨socket.address, ?_, ?_⟩, fun state => absurd state early⟩
      · cases address : socket.address <;> exact address ▸ holds
      · have silent : answered (server.transfersOf event.client) = [] :=
          ((reachable_unanswered reached _ _ concerns.live).connecting _ own rfl).2
        have other : event.type ≠ .clientWrite := by
          rw [type]
          exact fun same => by cases same
        dsimp only
        rw [answered_completed, silent, if_neg fun counts => other counts.2.1]
        rfl
  | grantGoesOn _ _ _ _ succeeded =>
      cases ended
      obtain ⟨address, held, whole⟩ := pending type
      refine ⟨fun _ _ => ⟨address, ?_, ?_⟩, fun state => absurd state early⟩
      · cases address <;> exact held
      · refine Eq.trans ?_ whole
        dsimp only
        rw [taken succeeded type, List.append_assoc]
        exact congrArg (_ ++ ·) (List.take_append_drop _ _)
  | @granted socket _ _ _ _ succeeded counted =>
      cases ended
      obtain ⟨address, held, whole⟩ := pending type
      have relaying : ((((server.retire index sqe res data).callOn session).forgetEvent.sent
          res.toNat).beginProxying (server.env answers) socket).self.state = .proxyingRequests :=
        (Call.beginProxying_state _ _).1
      refine ⟨fun state => ?_, fun _ => ⟨address, ?_, ?_⟩⟩
      · cases relaying.symm.trans state
      · simp only [Call.beginProxying]
        cases address <;> split <;> exact held
      · have all : res.toNat = session.writeClientBuffer.length := counted
        dsimp only
        rw [taken succeeded type, all, List.take_length, whole]
  | lost before | refusalSent before => exact absurd connecting before.1
  | decoded inPhase =>
      exact absurd connecting (inPhase.state ▸ Phase.state_beforeConnect _).1
  | methodGoesOn other | methodSent other => exact absurd other answering
  | deleted => cases ended
  | hungUp other | upRead other | upWritten other | upGoesOn other | downRead other
  | downWritten other | downGoesOn other => exact absurd other early

theorem Concerns.granted (reached : (eventLoop config).Reachable server)
    (concerns : server.Concerns index sqe res data answers event session rest)
    (law : (server.connection event.client session).Granted)
    (returned : Call.react (server.env answers) event.type res
      ((server.retire index sqe res data).callOn session) = .ok (after, false)) :
    (server.afterwards event session sqe res data rest after).Granted := by
  cases concerns.negotiates (reachable_negotiating reached _ _ concerns.live) returned with
  | decided handled _ _ _ fresh same requests =>
      have self : after.self = _ := same
      have submitted : rest ++ after.submitted = _ := requests
      constructor
      · intro state none
        obtain ⟨-, address, fd, -, -, -, asks⟩ :=
          handled.of_connecting fresh ((congrArg Session.state self).symm.trans state)
        refine absurd rfl (none ⟨.destinationConnect, .connect fd address⟩ ?_)
        dsimp only
        rw [submitted, asks]
        exact List.mem_singleton_self _
      · exact fun state =>
          absurd ((congrArg Session.state self).symm.trans state) handled.notProxying
  | lost _ before =>
      exact ⟨fun state => absurd state before.1, fun state => absurd state before.2⟩
  | written before _ _ _ state =>
      exact ⟨fun same => absurd (state.symm.trans same) before.1,
        fun same => absurd (state.symm.trans same) before.2⟩
  | connected beyond _ _ _ holds =>
      by_cases relaying : session.state = .proxyingRequests
      · have still : after.self.state = .proxyingRequests :=
          (concerns.reacted returned).proxying relaying
        obtain ⟨address, held, whole⟩ := law.granted relaying
        refine ⟨fun state => ?_, fun _ => ⟨address, holds address held, ?_⟩⟩
        · cases still.symm.trans state
        · dsimp only
          rw [answered_completed, if_neg fun counts => counts.2.2.2 relaying, List.append_nil]
          exact whole
      · have connecting : session.state = .connectingToDestination :=
          by_contra fun other => beyond ⟨other, relaying⟩
        exact concerns.granted_of_connecting reached law connecting returned

theorem reachable_ordered (reached : (eventLoop config).Reachable server) :
    ∀ client session, server.sessions.get? client = some session →
      (server.connection client session).Ordered := by
  refine reachable_connection Connection.Ordered ?_ reached
  intro server label client connection earlier _ _ lawful evolves
  cases evolves with
  | opened => exact ⟨rfl, fun _ => rfl, fun _ => rfl⟩
  | undisturbed live same =>
      have law := lawful _ live
      refine ⟨?_, ?_, ?_⟩
      · rw [same.transfers]
        exact law.order
      · rw [same.session, same.transfers]
        exact law.early
      · rw [same.session, same.transfers]
        exact law.ungreeted
  | filled _ _ _ live | collected _ _ _ live =>
      have law := lawful _ live
      exact ⟨law.order, law.early, law.ungreeted⟩
  | completed concerns owner returned =>
      subst owner
      exact concerns.ordered earlier (lawful _ concerns.live) returned

theorem reachable_granted (reached : (eventLoop config).Reachable server) :
    ∀ client session, server.sessions.get? client = some session →
      (server.connection client session).Granted := by
  refine reachable_connection Connection.Granted ?_ reached
  intro server label client connection earlier _ _ lawful evolves
  cases evolves with
  | opened => exact ⟨(fun state => by cases state), (fun state => by cases state)⟩
  | undisturbed live same =>
      have law := lawful _ live
      constructor
      · rw [same.session, same.transfers]
        intro state none
        exact law.granting state fun request member =>
          none request (same.requests.mem_iff.mpr member)
      · rw [same.session, same.transfers]
        exact law.granted
  | filled _ _ _ live | collected _ _ _ live =>
      have law := lawful _ live
      exact ⟨law.granting, law.granted⟩
  | completed concerns owner returned =>
      subst owner
      exact concerns.granted earlier (lawful _ concerns.live) returned

/-- A connect request to the address is in flight for the client. -/
def Asks (server : Server) (client : SessionId) (address : SockAddr) : Prop :=
  ∃ request ∈ server.requestsOf client, request.type = .destinationConnect ∧
    ∃ fd, request.operation = .connect fd address

/-- The connect request of a client's session completes without an error. -/
def ConnectSucceeds (server : Server) (client : SessionId) : Label → Prop
  | .complete index res _ _ =>
      0 ≤ res ∧ ∃ found ∈ server.concerned index, found.event = ⟨client, .destinationConnect⟩
  | .carry _ _ => False

end Server

/-- The answer to a connection request, as it goes out before anything is relayed: nothing
of it while the connect request is in flight, then what was written of it and what is
being written make up the whole, and while relaying all of it has been written. Until
then neither side is read. -/
structure Connection.Grants (connection : Connection) (address : SockAddr) : Prop where
  order : crossed .clientWrite connection.transfers =
    [0x05, 0x00] ++ answered connection.transfers ++ relayed connection.transfers
  connecting : connection.session.state = .connectingToDestination →
    relayed connection.transfers = [] ∧
      ((∀ request ∈ connection.requests, request.type = .destinationConnect) ∧
          answered connection.transfers = [] ∨
        (∀ request ∈ connection.requests, request.type = .clientWrite) ∧
          answered connection.transfers ++ connection.requests.flatMap connection.content =
            [0x05, 0x00, 0x00] ++ address.bytes)
  relaying : connection.session.state ≠ .connectingToDestination →
    connection.session.state = .proxyingRequests ∧
      answered connection.transfers = [0x05, 0x00, 0x00] ++ address.bytes
  patient : ∀ request ∈ connection.requests,
    request.type = .clientRead ∨ request.type = .destinationRead →
      answered connection.transfers = [0x05, 0x00, 0x00] ++ address.bytes

namespace Server

variable {config : Config} {server next : Server} {client : SessionId} {label : Label}
  {session : Session} {address : SockAddr}

open Transition

theorem grants_of_holds (reached : (eventLoop config).Reachable server)
    (live : server.sessions.get? client = some session)
    (beyond : ¬ session.state.BeforeConnect) (holds : session.Holds address) :
    (server.connection client session).Grants address := by
  have ordered := reachable_ordered reached client session live
  have law := reachable_granted reached client session live
  have greeted : session.state.Greeted :=
    ⟨fun same => beyond (same ▸ by decide), fun same => beyond (same ▸ by decide)⟩
  have order : crossed .clientWrite (server.transfersOf client) =
      [0x05, 0x00] ++ answered (server.transfersOf client) ++
        relayed (server.transfersOf client) := by
    cases reachable_selecting reached client session live with
    | ungreeted other => exact absurd greeted other.state
    | answering other | ended other => exact absurd other.state greeted.2
    | greeted other => exact ordered.order.trans (by rw [other.whole]; rfl)
  have granted : session.state = .proxyingRequests →
      answered (server.transfersOf client) = [0x05, 0x00, 0x00] ++ address.bytes := by
    intro relaying
    obtain ⟨other, held, whole⟩ := law.granted relaying
    rw [← Call.grantMessage_eq, ← Session.Holds.unique held holds]
    exact whole
  by_cases relaying : session.state = .proxyingRequests
  · refine ⟨order, fun connecting => ?_, fun _ => ⟨relaying, granted relaying⟩,
      fun _ _ _ => granted relaying⟩
    cases relaying.symm.trans connecting
  · have connecting : session.state = .connectingToDestination :=
      by_contra fun other => beyond ⟨other, relaying⟩
    obtain ⟨-, request, single, type⟩ :=
      ((reachable_wellFormed reached).consistent client session live).single_of_connecting
        connecting
    have member : request ∈ server.requestsOf client := single ▸ List.mem_singleton_self _
    have only : ∀ other ∈ (server.connection client session).requests, other = request := by
      intro other among
      have listed : other ∈ server.requestsOf client := among
      rwa [single, List.mem_singleton] at listed
    refine ⟨order, fun _ => ⟨ordered.early relaying, ?_⟩, fun other => absurd connecting other,
      fun other among reading => ?_⟩
    · rcases type with connects | writing
      · refine .inl ⟨fun other among => only other among ▸ connects, ?_⟩
        exact ((reachable_unanswered reached client session live).connecting request member
          connects).2
      · refine .inr ⟨fun other among => only other among ▸ writing, ?_⟩
        obtain ⟨other, held, whole⟩ := law.granting connecting fun other among connects => by
          cases (only other among ▸ writing).symm.trans connects
        have content := (content_of_early reached live relaying member writing).2.2
        rw [← Call.grantMessage_eq, ← Session.Holds.unique held holds, ← whole]
        simp only [Server.connection, single, List.flatMap_cons, List.flatMap_nil,
          List.append_nil]
        exact congrArg (_ ++ ·) content
    · rw [only other among] at reading
      rcases type with connects | writing
      · rcases reading with client | destination
        · cases connects.symm.trans client
        · cases connects.symm.trans destination
      · rcases reading with client | destination
        · cases writing.symm.trans client
        · cases writing.symm.trans destination

/-- A connect request is submitted by the step that brings the end of the client's request,
to what the system's answers in this step resolve its destination to. -/
theorem Asks.requested {index : Nat} {res : Int} {data : List Byte} {answers : Answers}
    (asks : next.Asks client address) (reached : (eventLoop config).Reachable server)
    (stepped : Step server (.complete index res data answers) next)
    (unasked : ∀ address, ¬ server.Asks client address) :
    ∃ session destination, next.sessions.get? client = some session ∧
      ¬ session.state.BeforeConnect ∧ session.Holds address ∧
      Matches (next.handshakeOf client) destination session.readBuffer ∧
      (destination.resolve fun name => answers.gethostbyname (cString name)).sockAddr?
        destination.port = some address := by
  have wellFormed := reachable_wellFormed reached
  obtain ⟨request, member, connects, fd, operation⟩ := asks
  have new : request ∉ server.requestsOf client :=
    fun earlier => unasked address ⟨request, earlier, connects, fd, operation⟩
  have opened : next.sessions.get? client ≠ none := by
    intro gone
    rw [(reachable_wellFormed (.step reached trivial stepped)).live client gone] at member
    cases member
  obtain ⟨session, live⟩ := Option.ne_none_iff_exists'.mp opened
  have evolves := (wellFormed.moves stepped).evolves wellFormed live
  have among : request ∈ (next.connection client session).requests := member
  generalize shown : next.connection client session = connection at evolves among
  cases evolves with
  | opened =>
      cases List.mem_singleton.mp among
      cases connects
  | undisturbed _ same => exact absurd (same.requests.mem_iff.mp among) new
  | completed concerns owner returned =>
      subst owner
      cases concerns.negotiates (reachable_negotiating reached _ _ concerns.live) returned with
      | decided handled tells _ _ fresh same requests =>
          have submitted := requests ▸ among
          have state := handled.connects fresh submitted connects
          obtain ⟨destination, target, number, rfl, resolved, holds, asked⟩ :=
            handled.of_connecting fresh state
          rw [asked, List.mem_singleton] at submitted
          subst submitted
          cases operation
          have self : session = _ := (congrArg Connection.session shown).trans same
          have stream : next.transfersOf _ = _ := congrArg Connection.transfers shown
          refine ⟨session, destination, live, ?_, self ▸ holds, ?_, resolved⟩
          · rw [self, state]
            decide
          · rw [handshakeOf, stream, self]
            exact decodeStream_eq_connect_iff.mp
              (tells.decodeStream_eq fun _ same => by cases same)
      | lost _ _ _ none =>
          have none : _ = [] := none
          rw [none] at among
          cases among
      | written _ _ _ _ _ _ _ _ writes => cases (writes request among).symm.trans connects
      | connected _ _ _ _ _ kept => exact absurd (kept request among connects) new

/-- The address a session connects to stays the one its fields hold. -/
theorem holds_forever (reached : (eventLoop config).Reachable server)
    (live : server.sessions.get? client = some session) (beyond : ¬ session.state.BeforeConnect)
    (holds : session.Holds address) {later : Server} (leads : (eventLoop config).Leads server later)
    {found : Session} (still : later.sessions.get? client = some found) :
    ¬ found.state.BeforeConnect ∧ found.Holds address := by
  refine (leads.invariant (fun state => client < state.sessions.next ∧
    ∀ found, state.sessions.get? client = some found →
      ¬ found.state.BeforeConnect ∧ found.Holds address) reached
    ⟨Heap.get?_eq_some_lt live, fun found same => ?_⟩
    fun state label next earlier law stepped => ?_).2 found still
  · cases live.symm.trans same
    exact ⟨beyond, holds⟩
  · obtain ⟨used, law⟩ := law
    have wellFormed := reachable_wellFormed earlier
    have moves := wellFormed.moves stepped
    refine ⟨Nat.lt_of_lt_of_le used moves.next_le, fun found alive => ?_⟩
    cases existed : state.sessions.get? client with
    | none =>
        rw [moves.dead used existed] at alive
        cases alive
    | some before =>
        have evolves := moves.evolves wellFormed alive
        generalize shown : next.connection client found = connection at evolves
        have self : found = connection.session := congrArg Connection.session shown
        rw [self]
        cases evolves with
        | opened absent => cases existed.symm.trans absent
        | undisturbed live same =>
            rw [same.session]
            exact law _ live
        | filled _ _ _ live | collected _ _ _ live => exact law _ live
        | completed concerns owner returned =>
            subst owner
            obtain ⟨beyond, held⟩ := law _ concerns.live
            cases concerns.negotiates (reachable_negotiating earlier _ _ concerns.live)
              returned with
            | decided _ _ before | lost before | written before => exact absurd before beyond
            | connected _ still _ _ holds => exact ⟨still, holds address held⟩

theorem ConnectSucceeds.writes (succeeds : server.ConnectSucceeds client label)
    (reached : (eventLoop config).Reachable server) (stepped : Step server label next) :
    ∃ session write, next.sessions.get? client = some session ∧
      next.requestsOf client = [write] ∧ write.type = .clientWrite := by
  have wellFormed := reachable_wellFormed reached
  have moves := wellFormed.moves stepped
  cases moves with
  | filled | collected => exact succeeds.elim
  | acceptFailed completes unowned | acceptRefused completes unowned
  | accepted completes unowned =>
      obtain ⟨-, found, concerned, -⟩ := succeeds
      rw [completes.concerned_none unowned] at concerned
      cases concerned
  | @served index sqe res data answers event session rest after deleted _ serves =>
      obtain ⟨succeeded, found, concerned, named⟩ := succeeds
      rw [serves.concerned] at concerned
      cases concerned
      subst named
      have member : (⟨.destinationConnect, sqe.operation⟩ : Request) ∈ server.requestsOf client :=
        serves.member
      have state : session.state = .connectingToDestination :=
        ((reachable_unanswered reached client session serves.live).connecting _ member rfl).1
      have healthy := (serves.consistent.single_of_connecting state).1
      obtain ⟨rfl, write, single, writing⟩ :=
        serves.reacted.of_connected rfl rfl state healthy succeeded
      exact ⟨after.self, write, serves.get?_kept, serves.own.trans single, writing⟩

end Server

/-- From the step that submits a client's connect request on, the client is told of just
the address that is connected to: for a request that gives an address that is the request
from its address type on, for a name what it resolves to in this step with the port asked
for. Once the connect request succeeds the answer is on its way. -/
theorem grants_sent {config : Config} {server next : Server} {client : SessionId}
    {address : SockAddr} {index : Nat} {res : Int} {data : List Byte} {answers : Answers}
    (reached : (eventLoop config).Reachable server)
    (stepped : Server.Step server (.complete index res data answers) next)
    (unasked : ∀ address, ¬ server.Asks client address) (asks : next.Asks client address) :
    (∃ destination greeting request following, Greets greeting ∧ Requests destination request ∧
      next.handshakeOf client = greeting ++ request ++ following ∧
      (destination.resolve fun name => answers.gethostbyname (cString name)).sockAddr?
        destination.port = some address ∧
      ((∀ name port, destination ≠ .domainName name port) → request.drop 3 = address.bytes)) ∧
    ∀ later, (eventLoop config).Leads next later →
      (∀ session, later.sessions.get? client = some session →
        (later.connection client session).Grants address) ∧
      ∀ label final, Server.Step later label final → later.ConnectSucceeds client label →
        ∃ session write, final.sessions.get? client = some session ∧
          final.requestsOf client = [write] ∧ write.type = .clientWrite := by
  have following : (eventLoop config).Reachable next := .step reached trivial stepped
  obtain ⟨session, destination, live, beyond, holds, ⟨greeting, request, greets, requests, stream⟩,
    resolved⟩ := asks.requested reached stepped unasked
  refine ⟨⟨destination, greeting, request, session.readBuffer, greets, requests, stream, resolved,
    fun given => requests.drop_eq given resolved⟩, fun later leads => ?_⟩
  have reaches := leads.reachable following
  refine ⟨fun found still => ?_, fun label final steps succeeds =>
    succeeds.writes reaches steps⟩
  obtain ⟨connects, held⟩ := Server.holds_forever following live beyond holds leads still
  exact Server.grants_of_holds reaches still connects held

/-- The local host is asked for by its address. -/
theorem grants_sent_localhost :
    ∃ server next, (eventLoop (.single true)).Reachable server ∧
      Server.Step server (.complete 1 10 [5, 1, 0, 1, 127, 0, 0, 1, 0, 80]
        ⟨fun _ => .failure, .created 6⟩) next ∧
      ∀ later session, (eventLoop (.single true)).Leads next later →
        later.sessions.get? 0 = some session →
        (later.connection 0 session).Grants (.inet ⟨[127, 0, 0, 1], rfl⟩ ⟨[0, 80], rfl⟩) := by
  obtain ⟨server, next, reached, stepped, shown⟩ := Server.exists_step (.single true)
    (Label.relaying.take 3) (.complete 1 10 [5, 1, 0, 1, 127, 0, 0, 1, 0, 80]
      ⟨fun _ => .failure, .created 6⟩) (fun _ _ => true)
    (fun server next => (∀ request ∈ server.requestsOf 0, request.type ≠ .destinationConnect) ∧
      ∃ request ∈ next.requestsOf 0, request.type = .destinationConnect ∧
        request.operation = .connect 6 (.inet ⟨[127, 0, 0, 1], rfl⟩ ⟨[0, 80], rfl⟩))
    (fun _ _ _ _ => trivial) (by decide)
  obtain ⟨unasked, request, member, connects, operation⟩ := of_decide_eq_true shown
  have before : ∀ address, ¬ server.Asks 0 address := by
    rintro address ⟨other, among, connecting, -⟩
    exact unasked other among connecting
  have sent := grants_sent reached stepped before ⟨request, member, connects, 6, operation⟩
  exact ⟨server, next, reached, stepped, fun later session leads live =>
    (sent.2 later leads).1 session live⟩

end ModernCppHw.Socks5
