import ModernCppHw.Socks5.Outstanding
import ModernCppHw.Socks5.Reference
import ModernCppHw.Socks5.Traffic

/-! How a session follows its client's handshake: what it holds back is what
decoding all that the client has sent has not consumed, however that came in
pieces, until it has decided what the reference parser decides. -/

set_option autoImplicit false

namespace ModernCppHw.Socks5

/-- What a client has sent in the handshake. -/
def handshake (transfers : List Transfer) : List Byte :=
  (transfers.filter fun transfer =>
    transfer.type = .clientRead ∧ transfer.state.BeforeConnect).flatMap (·.bytes)

theorem handshake_append (left right : List Transfer) :
    handshake (left ++ right) = handshake left ++ handshake right := by
  simp [handshake]

theorem handshake_of_other {server : Server} {event : Event} {session : Session} {sqe : Sqe}
    {res : Int} {data : List Byte} (transfers : List Transfer)
    (idle : event.type ≠ .clientRead ∨ ¬ session.state.BeforeConnect ∨ res < 0) :
    handshake (transfers ++ server.transferred event session sqe res data) =
      handshake transfers := by
  rw [handshake_append]
  unfold Server.transferred
  split
  · exact List.append_nil _
  · rcases idle with other | after | failing
    · simp [handshake, other]
    · simp [handshake, after]
    · contradiction

theorem handshake_of_read {server : Server} {event : Event} {session : Session} {sqe : Sqe}
    {res : Int} {data : List Byte} (transfers : List Transfer) (reading : event.type = .clientRead)
    (before : session.state.BeforeConnect) (succeeded : 0 ≤ res) :
    handshake (transfers ++ server.transferred event session sqe res data) =
      handshake transfers ++ server.moved sqe res.toNat data := by
  rw [handshake_append, Server.transferred, if_neg (Int.not_lt.mpr succeeded)]
  simp [handshake, reading, before]

/-- How far a session has got with its client's handshake. -/
inductive Connection.Negotiating (connection : Connection) : Prop where
  | reading {phase : Phase} :
      connection.session.InPhase phase → connection.session.isFailed = false →
      (∀ request ∈ connection.requests, request.type = .clientRead) →
      Tells (handshake connection.transfers) (.wait phase connection.session.readBuffer) →
      Negotiating connection
  | replying :
      connection.session.state = .readingAuthMethods → connection.session.isFailed = false →
      (∀ request ∈ connection.requests, request.type = .clientWrite) →
      Tells (handshake connection.transfers) (.selectMethod connection.session.readBuffer) →
      Negotiating connection
  | halted :
      connection.session.state.BeforeConnect →
      connection.session.isFailed = true ∨ connection.requests = [] →
      (∀ request ∈ connection.requests, request.type = .clientWrite) →
      Negotiating connection
  | connected {destination : Destination} {address : SockAddr} :
      ¬ connection.session.state.BeforeConnect →
      Tells (handshake connection.transfers)
        (.connect destination connection.session.readBuffer) →
      connection.session.Holds address →
      (∀ request ∈ connection.requests, request.type = .destinationConnect →
        ∃ fd, request.operation = .connect fd address) →
      Negotiating connection

/-- What the completion of a session's request means for its handshake: a decision
is acted on, the session is lost, a part of a message has been written, or the
handshake is over. -/
inductive Connection.Negotiates (env : Env) (type : EventType) (res : Int)
    (before after : Connection) : Prop where
  | decided {decision : Decision} {call next : Call} :
      Handled env call decision (.ok next) → Tells (handshake after.transfers) decision →
      before.session.state.BeforeConnect → call.self.isFailed = false → call.submitted = [] →
      after.session = next.self → after.requests = next.submitted →
      Negotiates env type res before after
  | lost :
      before.session.state.BeforeConnect → after.session.state.BeforeConnect →
      after.session.isFailed = true → after.requests = [] →
      res < 0 ∨ (res = 0 ∧ type = .clientRead) →
      Negotiates env type res before after
  | written {request : Request} :
      before.session.state.BeforeConnect →
      request ∈ before.requests → request.type = .clientWrite →
      handshake after.transfers = handshake before.transfers →
      after.session.state = before.session.state →
      after.session.isFailed = before.session.isFailed →
      after.session.readBuffer = before.session.readBuffer →
      (before.session.isFailed = true → after.session.fd = before.session.fd ∧
        after.session.writeClientBuffer = before.session.writeClientBuffer) →
      (∀ request ∈ after.requests, request.type = .clientWrite) →
      Negotiates env type res before after
  | connected :
      ¬ before.session.state.BeforeConnect → ¬ after.session.state.BeforeConnect →
      handshake after.transfers = handshake before.transfers →
      after.session.readBuffer = before.session.readBuffer →
      (∀ address, before.session.Holds address → after.session.Holds address) →
      (∀ request ∈ after.requests, request.type = .destinationConnect →
        request ∈ before.requests) →
      Negotiates env type res before after

namespace Connection

variable {env : Env} {type : EventType} {res : Int} {before after connection : Connection}

theorem Negotiating.of_handled {call next : Call} {decision : Decision} {buffers : Memory Byte}
    {transfers : List Transfer} {deliveries : List Delivery} {underway : EventType → List Byte}
    (handled : Handled env call decision (.ok next)) (tells : Tells (handshake transfers) decision)
    (healthy : call.self.isFailed = false) (fresh : call.submitted = []) :
    Negotiating ⟨next.self, next.submitted, buffers, transfers, deliveries, underway⟩ := by
  have only : ∀ {new : Request} {type : EventType}, new.type = type →
      ∀ request ∈ call.submitted ++ [new], request.type = type := by
    intro new type named request member
    rw [fresh, List.nil_append, List.mem_singleton] at member
    exact member ▸ named
  have none : ∀ request ∈ call.submitted, request.type = .clientWrite := by
    intro request member
    rw [fresh] at member
    exact absurd member List.not_mem_nil
  have early : ∀ {self : Session} (phase : Phase), self.state = phase.state →
      self.state.BeforeConnect := fun phase state => state ▸ phase.state_beforeConnect
  generalize ended : Except.ok next = result at handled
  cases handled with
  | wait steady inPhase =>
      cases ended
      exact .reading ⟨inPhase.state, inPhase.awaits, inPhase.knows.congr rfl rfl rfl⟩
        (steady.isFailed.trans healthy) (only rfl) tells
  | close steady state =>
      obtain ⟨files, -, -, rfl⟩ := Call.failImmediately_ok ended.symm
      exact .halted (early .greeting state) (.inl rfl) none
  | selectMethod steady state =>
      cases ended
      exact .replying state (steady.isFailed.trans healthy) (only rfl) tells
  | refuseMethods steady state =>
      cases ended
      exact .halted (early (.methods 0) state) (.inl rfl) (only rfl)
  | refuse steady state =>
      cases ended
      exact .halted (early .request state) (.inl rfl) (only rfl)
  | unresolved steady state | socketException steady state =>
      cases ended
      exact .halted (early (.address .ipv4) state) (.inl rfl) (only rfl)
  | otherFamily steady state =>
      cases Call.unreachable_ok ended.symm
      exact .halted (early (.address .ipv4) state) (.inr fresh) none
  | @connect destination self address fd steady holds =>
      cases ended
      refine .connected nofun tells (?_ : Session.Holds _ address) fun request member _ => ⟨fd, ?_⟩
      · cases address <;> exact holds
      · have single : request ∈ call.submitted ++ [_] := member
        rw [fresh, List.nil_append, List.mem_singleton] at single
        rw [single]
        rfl
  | socketError => cases ended

theorem Negotiating.congr (law : before.Negotiating) (session : after.session = before.session)
    (requests : ∀ request ∈ after.requests, request ∈ before.requests)
    (stream : handshake after.transfers = handshake before.transfers) : after.Negotiating := by
  cases law with
  | reading inPhase healthy reads tells =>
      exact .reading (session ▸ inPhase) (session ▸ healthy)
        (fun request member => reads request (requests request member))
        (by rw [stream, session]; exact tells)
  | replying state healthy writes tells =>
      exact .replying (session ▸ state) (session ▸ healthy)
        (fun request member => writes request (requests request member))
        (by rw [stream, session]; exact tells)
  | halted early ending writes =>
      refine .halted (session ▸ early) (ending.imp (fun failed => session ▸ failed) fun none => ?_)
        fun request member => writes request (requests request member)
      exact List.eq_nil_iff_forall_not_mem.mpr fun request member =>
        List.eq_nil_iff_forall_not_mem.mp none request (requests request member)
  | connected beyond tells holds asks =>
      exact .connected (session ▸ beyond) (by rw [stream, session]; exact tells)
        (session ▸ holds) fun request member => asks request (requests request member)

/-- While the client is read the session waits for what it has told so far to go on. -/
theorem Negotiating.waits (law : connection.Negotiating) {phase : Phase} {request : Request}
    (inPhase : connection.session.InPhase phase) (member : request ∈ connection.requests)
    (reading : request.type = .clientRead) :
    Tells (handshake connection.transfers) (.wait phase connection.session.readBuffer) := by
  cases law with
  | @reading other inOther _ _ waits =>
      have same : phase = other := Option.some.inj (inPhase.phase_eq.symm.trans inOther.phase_eq)
      exact same ▸ waits
  | replying _ _ writes | halted _ _ writes => cases (writes _ member).symm.trans reading
  | connected beyond => exact absurd (inPhase.state ▸ Phase.state_beforeConnect _) beyond

theorem Negotiates.negotiating (negotiates : Negotiates env type res before after)
    (law : before.Negotiating) : after.Negotiating := by
  cases negotiates with
  | decided handled tells early healthy fresh session requests =>
      obtain ⟨self, submitted, buffers, transfers, deliveries, underway⟩ := after
      subst session requests
      exact .of_handled handled tells healthy fresh
  | lost early still failed none => exact .halted still (.inl failed) (none ▸ nofun)
  | written early own writing stream state failing held message writes =>
      cases law with
      | reading _ _ reads => exact nomatch (reads _ own).symm.trans writing
      | replying at_ healthy _ tells =>
          exact .replying (state.trans at_) (failing.trans healthy) writes
            (by rw [stream, held]; exact tells)
      | halted _ ending =>
          rcases ending with failed | none
          · exact .halted (state ▸ early) (.inl (failing.trans failed)) writes
          · exact absurd own (List.eq_nil_iff_forall_not_mem.mp none _)
      | connected beyond => exact absurd early beyond
  | connected beyond still stream held holds kept =>
      cases law with
      | reading inPhase =>
          exact absurd (inPhase.state ▸ Phase.state_beforeConnect _) beyond
      | replying at_ => exact absurd (at_ ▸ (Phase.methods 0).state_beforeConnect) beyond
      | halted early => exact absurd early beyond
      | connected _ tells target asks =>
          exact .connected still (by rw [stream, held]; exact tells) (holds _ target)
            fun request member connecting =>
              asks request (kept request member connecting) connecting

end Connection

namespace Server

variable {server : Server} {client : SessionId} {label : Label} {connection : Connection}
  {index : Nat} {sqe : Sqe} {res : Int} {data : List Byte} {answers : Answers} {event : Event}
  {session : Session} {rest : List Request} {after : Call}

/-- A read of the client in the handshake adds the bytes it brought to the stream. -/
theorem handshake_of_request
    (asked : (⟨event.type, sqe.operation⟩ : Request) =
      session.clientReadRequest server.config.isRoot)
    (before : session.state.BeforeConnect) (positive : 0 < res) (transfers : List Transfer) :
    handshake (transfers ++ server.transferred event session sqe res data) =
      handshake transfers ++ data := by
  have operation : sqe.operation = (session.clientReadRequest server.config.isRoot).operation :=
    congrArg Request.operation asked
  rw [handshake_of_read _ (congrArg Request.type asked) before (Int.le_of_lt positive)]
  simp [moved, operation, Session.clientReadRequest]

theorem Concerns.negotiates
    (concerns : server.Concerns index sqe res data answers event session rest)
    (law : (server.connection event.client session).Negotiating)
    (returned : Call.react (server.env answers) event.type res
      ((server.retire index sqe res data).callOn session) = .ok (after, false)) :
    Connection.Negotiates (server.env answers) event.type res
      (server.connection event.client session)
      (server.afterwards event session sqe res data rest after) := by
  have own := concerns.member
  have kept : ∀ {submitted : List Request},
      (∀ new ∈ submitted, new.type ≠ .destinationConnect) →
      ∀ request ∈ rest ++ submitted, request.type = .destinationConnect →
        request ∈ server.requestsOf event.client := by
    intro submitted none request member connecting
    rcases List.mem_append.mp member with left | new
    · exact concerns.left_member left
    · exact absurd connecting (none request new)
  have single : ∀ {only : Request}, only.type ≠ .destinationConnect →
      ∀ new ∈ [only], new.type ≠ .destinationConnect := by
    intro only other new member
    exact List.mem_singleton.mp member ▸ other
  have unread : ¬ session.state.BeforeConnect →
      handshake (server.transfersOf event.client ++
        server.transferred event session sqe res data) =
          handshake (server.transfersOf event.client) :=
    fun beyond => handshake_of_other _ (.inr (.inl beyond))
  have connecting : session.state = .connectingToDestination → ¬ session.state.BeforeConnect :=
    fun state before => before.1 state
  have proxying : session.state = .proxyingRequests → ¬ session.state.BeforeConnect :=
    fun state before => before.2 state
  have reacted := concerns.reacted returned
  generalize asked : (⟨event.type, sqe.operation⟩ : Request) = request at reacted own
  have type : event.type = request.type := congrArg Request.type asked
  generalize ended : Except.ok (after, false) = result at reacted
  cases reacted with
  | lost before null awaited ending =>
      obtain ⟨files, -, -, rfl⟩ := Call.failImmediately_ok (Reacts.kept_ok ended.symm).1
      refine .lost before before rfl rfl ?_
      exact ending.imp_right fun ⟨ended, _, reading⟩ => ⟨ended, type.trans reading⟩
  | @decoded phase result inPhase healthy null awaited positive handled =>
      obtain ⟨rfl, -⟩ := Reacts.kept_ok ended.symm
      have before : session.state.BeforeConnect := by
        have state : session.state = phase.state := inPhase.state
        rw [state]
        exact phase.state_beforeConnect
      have received : (((server.retire index sqe res data).callOn session).forgetEvent.receive
          res.toNat).self.readBuffer = session.readBuffer ++ data :=
        congrArg (session.readBuffer ++ ·) (concerns.received asked inPhase.early positive)
      have stream : handshake (server.transfersOf event.client ++
          server.transferred event session sqe res data) =
            handshake (server.transfersOf event.client) ++ data :=
        handshake_of_request asked before positive _
      rw [received] at handled
      refine .decided handled ?_ before healthy rfl rfl rfl
      exact stream ▸ (law.waits inPhase own rfl).resume data
  | methodGoesOn state healthy =>
      cases ended
      have before : session.state.BeforeConnect := by
        have state : session.state = .readingAuthMethods := state
        rw [state]
        decide
      have writing : event.type = .clientWrite := type
      refine .written before own rfl (handshake_of_other _ (.inl (writing ▸ by decide))) rfl rfl rfl
        (fun failed => by cases failed.symm.trans healthy) fun request member => ?_
      cases List.mem_singleton.mp member
      rfl
  | methodSent state healthy null awaited succeeded whole handled =>
      obtain ⟨rfl, -⟩ := Reacts.kept_ok ended.symm
      have writing : event.type = .clientWrite := type
      have before : session.state.BeforeConnect := by
        have state : session.state = .readingAuthMethods := state
        rw [state]
        decide
      have stream : handshake (server.transfersOf event.client ++
          server.transferred event session sqe res data) =
            handshake (server.transfersOf event.client) :=
        handshake_of_other _ (.inl (writing ▸ by decide))
      refine .decided handled ?_ before healthy rfl rfl rfl
      cases law with
      | reading _ _ reads => cases reads _ own
      | replying _ _ _ greeted => exact .inr ⟨_, stream ▸ greeted.greeted, rfl⟩
      | halted _ ending =>
          rcases ending with failed | none
          · cases failed.symm.trans healthy
          · exact absurd own (List.eq_nil_iff_forall_not_mem.mp none _)
      | connected beyond => exact absurd before beyond
  | refusalSent before failed =>
      cases ended
      have writing : event.type = .clientWrite := type
      exact .written before own rfl (handshake_of_other _ (.inl (writing ▸ by decide))) rfl rfl rfl
        (fun _ => ⟨rfl, rfl⟩) fun _ member => absurd member List.not_mem_nil
  | deleted => cases ended
  | connected state | grantGoesOn state =>
      cases ended
      exact .connected (connecting state) (connecting state) (unread (connecting state)) rfl
        (fun _ holds => holds) (kept (single (fun same => by cases same)))
  | @granted socket state =>
      cases ended
      have relaying : ((((server.retire index sqe res data).callOn session).forgetEvent.sent
          res.toNat).beginProxying (server.env answers) socket).self.state = .proxyingRequests :=
        (Call.beginProxying_state _ _).1
      refine .connected (connecting state) (fun before => before.2 relaying)
        (unread (connecting state)) ?_ (fun address holds => ?_) (kept fun new member => ?_)
      · simp only [Call.beginProxying]
        split <;> rfl
      · simp only [Call.beginProxying]
        cases address <;> split <;> exact holds
      · by_cases held : session.readBuffer = []
        · rw [Call.beginProxying_reads rfl held] at member
          rcases List.mem_pair.mp member with rfl | rfl <;> (intro same; cases same)
        · rw [Call.beginProxying_writes rfl held] at member
          rcases List.mem_pair.mp member with rfl | rfl <;> (intro same; cases same)
  | hungUp state =>
      obtain ⟨files, -, -, rfl⟩ := Call.failImmediately_ok (Reacts.kept_ok ended.symm).1
      refine .connected (proxying state) (proxying state) (unread (proxying state)) rfl
        (fun address holds => ?_) (kept fun _ member => absurd member List.not_mem_nil)
      cases address <;> exact holds
  | upRead state | upWritten state | upGoesOn state | downRead state | downWritten state
  | downGoesOn state =>
      cases ended
      refine .connected (proxying state) (proxying state) (unread (proxying state)) rfl
        (fun address holds => ?_) (kept (single (fun same => by cases same)))
      cases address <;> exact holds

/-- What the client of a session has sent in the handshake. -/
def handshakeOf (server : Server) (client : SessionId) : List Byte :=
  handshake (server.transfersOf client)

end Server

open Transition

theorem reachable_negotiating {config : Config} {server : Server}
    (reached : (eventLoop config).Reachable server) :
    ∀ client session, server.sessions.get? client = some session →
      (server.connection client session).Negotiating := by
  refine reachable_connection Connection.Negotiating ?_ reached
  intro server label client connection _ _ _ lawful evolves
  cases evolves with
  | @opened _ fd bufferIndex =>
      have waiting : (Session.accepted fd bufferIndex).InPhase .greeting := ⟨rfl, rfl, trivial⟩
      refine .reading waiting rfl (fun request member => ?_) (.inl rfl)
      rw [List.mem_singleton.mp member]
      rfl
  | undisturbed live same =>
      exact (lawful _ live).congr same.session (fun request => same.requests.mem_iff.mp)
        (congrArg handshake same.transfers)
  | filled _ _ _ live | collected _ _ _ live =>
      exact (lawful _ live).congr rfl (fun _ member => member) rfl
  | completed concerns owner returned =>
      subst owner
      have law := lawful _ concerns.live
      exact (concerns.negotiates law returned).negotiating law

end ModernCppHw.Socks5
